import Formula.Decimal.Basic

/-!
# Floating-point numbers

Two operations of the calculator leave the exact arithmetic: the sine, and a power that is not
computed exactly.  They work on binary floating-point numbers of 64 bits.  A `Binary64` is such a
number, given by its bits: one for the sign, eleven for the exponent, fifty-two for the fraction.

In the bits, `0x10000000000000` is the unit of the exponent, `2 ^ 52`, and `0x8000000000000000` is
the bit of the sign, `2 ^ 63`.

* `isNaN`, `isInfinite`, `isZero` — the special values.
* `significand` and `shift` — a finite number is `± significand · 2 ^ shift`, with a whole
  significand below `2 ^ 53`.  For subnormal numbers the leading bit of the significand is missing
  and the shift is that of the smallest normal numbers.
* `toDecimal` — the exact decimal value.  A binary fraction is a decimal fraction too, since
  `m · 2 ^ (-k) = m · 5 ^ k · 10 ^ (-k)`.
-/

set_option autoImplicit false

-- Powers are those of the core library.
attribute [local instance (high)] instPowNat

namespace Formula

/-- A binary floating-point number of 64 bits. -/
structure Binary64 where
  bits : UInt64
deriving DecidableEq, Inhabited

namespace Binary64

/-- The bits as a number. -/
def pattern (x : Binary64) : Nat := x.bits.toNat

/-- The eleven bits of the exponent. -/
def exponentField (x : Binary64) : Nat := x.pattern / 0x10000000000000 % 0x800

/-- The fifty-two bits of the fraction. -/
def fractionField (x : Binary64) : Nat := x.pattern % 0x10000000000000

def isNegative (x : Binary64) : Bool := 0x8000000000000000 ≤ x.pattern

def isNaN (x : Binary64) : Bool := x.exponentField = 2047 && x.fractionField ≠ 0

def isInfinite (x : Binary64) : Bool := x.exponentField = 2047 && x.fractionField = 0

def isFinite (x : Binary64) : Bool := x.exponentField ≠ 2047

/-- Zero, of either sign. -/
def isZero (x : Binary64) : Bool := x.exponentField = 0 && x.fractionField = 0

/-- The whole significand of a finite number. -/
def significand (x : Binary64) : Nat :=
  if x.exponentField = 0 then x.fractionField else 0x10000000000000 + x.fractionField

/-- The power of two that goes with the significand. -/
def shift (x : Binary64) : Int := max x.exponentField 1 - 1075

/-- The bits of a number, with a given sign. -/
def ofPattern (negative : Bool) (n : Nat) : Binary64 :=
  ⟨UInt64.ofNat (if negative then 0x8000000000000000 + n else n)⟩

/-- The infinity of a given sign. -/
def infinity (negative : Bool) : Binary64 := ofPattern negative 0x7ff0000000000000

/-- A value that is not a number. -/
def nan : Binary64 := ofPattern false 0x7ff8000000000000

/-- The exact decimal value of a finite number. -/
def toDecimal (x : Binary64) : Decimal :=
  if 0 ≤ x.shift then .finite x.isNegative (x.significand * 2 ^ x.shift.toNat) 0
  else .finite x.isNegative (x.significand * 5 ^ (-x.shift).toNat) x.shift

end Binary64

end Formula
