import Formula.Decimal.Basic

/-!
# Decimals that are whole numbers

Powers with a whole exponent are exact, and the number of places to round to has to be a whole
number.  What counts is the value: `3`, `3.0` and `0.3E+1` are the same whole number.

`integralValue d limit` is that whole number if there is one within `± limit`.  It is found in three
steps.  A number whose leading digit lies beyond the characters of the limit is turned away by that
alone (`outgrows`), so a huge exponent is never written out; what is left is converted if it is
whole (`converted?`), and only then held against the limit (`within`).
-/

set_option autoImplicit false

-- Powers are those of the core library.
attribute [local instance (high)] instPowNat

namespace Formula.Decimal

/-- The number of characters of a whole number in decimal notation, with its sign. -/
def width (n : Int) : Nat := Digits.count n.natAbs + if n < 0 then 1 else 0

/-- Does the leading digit of a number lie beyond the characters of the limit?  A zero has none. -/
def outgrows (d : Decimal) (limit : Int) : Bool :=
  match d with
  | finite _ c e => c ≠ 0 && width limit < magnitude c e
  | _ => false

/-- The whole number that a decimal is numerically equal to, if there is one. -/
def toInt? : Decimal → Option Int
  | finite s c e =>
    if c = 0 then some 0
    else if 0 ≤ e then some (signed s (c * 10 ^ e.toNat))
    else
      let unit := 10 ^ (-e).toNat
      if c % unit = 0 then some (signed s (c / unit)) else none
  | _ => none

/-- The whole number that is held against the limit. -/
def converted? (d : Decimal) (limit : Int) : Option Int :=
  if d.outgrows limit then none else d.toInt?

/-- The whole number `n` if it lies within `± limit`. -/
def within (limit n : Int) : Option Int := if (n.natAbs : Int) ≤ limit then some n else none

/-- The whole number that a decimal is numerically equal to, if there is one within `± limit`. -/
def integralValue (d : Decimal) (limit : Int) : Option Int :=
  (d.converted? limit).bind (within limit)

end Formula.Decimal
