import Formula.Decimal.Basic

/-!
# Plain notation

Results are shown without an exponent.  A positive exponent is written out as zeros, a negative one
is the number of digits after the point, and a zero has no sign.
-/

set_option autoImplicit false

-- Powers are those of the core library.
attribute [local instance (high)] instPowNat

namespace Formula.Decimal

/-- The digits of `c · 10 ^ e`. -/
def plainDigits (c : Nat) (e : Int) : List Char :=
  if 0 ≤ e then
    if c = 0 then ['0'] else Digits.ofNat c ++ List.replicate e.toNat '0'
  else
    let places := (-e).toNat
    let unit := 10 ^ places
    Digits.ofNat (c / unit) ++ '.' :: Digits.write places (c % unit) []

/-- A decimal in plain notation. -/
def plain : Decimal → List Char
  | finite s c e => if s && c ≠ 0 then '-' :: plainDigits c e else plainDigits c e
  | infinity s => (if s then "-Infinity" else "Infinity").toList
  | nan s => (if s then "-NaN" else "NaN").toList

end Formula.Decimal
