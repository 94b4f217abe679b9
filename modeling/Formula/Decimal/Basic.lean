import Formula.Digits

/-!
# Decimals

A `Decimal` is what the calculator computes with: a sign, a whole coefficient of any size and an
exponent, read as `± coefficient · 10 ^ exponent`.  Two decimals with the same value are different
if they are written differently: `2` has the exponent `0` and `2.0` has the exponent `-1`, and a
zero keeps its sign.  The calculator shows the exponent as the number of places after the point, so
the difference is one the user can see.

Registered functions may also bring in the infinities and a value that is not a number.  No
operation of the calculator makes them out of finite decimals.

* `negative`, `isZero`, `isFinite` — the sign and the two tests on a decimal.
* `negate` — the other sign; a value that is not a number has none to change.
* `magnitude` — the exponent of the leading digit (`e` for a number between `10 ^ e` and
  `10 ^ (e + 1)`), which says how large a number is without writing it out.
-/

set_option autoImplicit false

namespace Formula

/-- A decimal number of any precision, an infinity, or a value that is not a number. -/
inductive Decimal
  /-- The number `± coefficient · 10 ^ exponent`. -/
  | finite (negative : Bool) (coefficient : Nat) (exponent : Int)
  | infinity (negative : Bool)
  | nan (negative : Bool)
deriving DecidableEq, Inhabited

namespace Decimal

/-- The whole number `n`, with the exponent zero. -/
def ofInt (n : Int) : Decimal := finite (n < 0) n.natAbs 0

/-- Is the number zero, of either sign and with any exponent? -/
def isZero : Decimal → Bool
  | finite _ c _ => c = 0
  | _ => false

def isFinite : Decimal → Bool
  | finite .. => true
  | _ => false

/-- The number with the other sign. -/
def negate : Decimal → Decimal
  | finite s c e => finite (!s) c e
  | infinity s => infinity (!s)
  | nan s => nan s

theorem negate_negate (d : Decimal) : d.negate.negate = d := by
  cases d <;> simp [negate]

/-- The coefficient with its sign. -/
def signed (negative : Bool) (n : Nat) : Int := if negative then -(n : Int) else n

/-- The exponent of the leading digit of `c · 10 ^ e`. -/
def magnitude (c : Nat) (e : Int) : Int := e + Digits.count c - 1

end Decimal

end Formula
