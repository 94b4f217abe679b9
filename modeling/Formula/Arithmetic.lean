import Formula.Binary64.Nearest
import Formula.Decimal.Integral
import Formula.Decimal.Rounding
import Formula.Elementary

/-!
# Powers and floating-point results

Sums, differences, products and quotients need nothing but their operands and the scale.  A power
needs more: it is exact as long as its size allows it, and otherwise it is left to the machine.  An
`Arithmetic` holds the bounds between the two and the elementary functions of the machine.

* `powerDigits` estimates the size of an exact power from above, without computing it.
* `exactPower` — a whole power, exactly.
* `ofBinary64` — a floating-point result as a decimal: its exact value, rounded only if it has more
  than `scale` digits after the point.
* `power` — a whole exponent within the bounds gives an exact power, or the rounded reciprocal of
  one; any other exponent goes through the machine (`floatPower`).
* `sine` — always goes through the machine.

The machine reports its own failures by a result that is not finite.  `floatPower` tells them apart:
outside the domain are a power of finite numbers that is not a number, and a negative power of zero;
any other infinite result is out of range.
-/

set_option autoImplicit false

-- Powers are those of the core library.
attribute [local instance (high)] instPowNat

namespace Formula

/-- The bounds of exact powers and of rounding, and the machine's elementary functions. -/
structure Arithmetic where
  /-- Exponents beyond this bound leave the exact arithmetic. -/
  maxExactExponent : Int
  /-- Exact powers have at most this many digits, by `powerDigits`. -/
  maxResultDigits : Int
  /-- The bound for the number of places to round to. -/
  maxRoundingDigits : Int
  elementary : Elementary

namespace Arithmetic

open Decimal

/-! ## Whole powers -/

/-- An upper estimate of the digits of a power written out in full. -/
def powerDigits (base : Decimal) (n : Int) : Except Failure Nat :=
  match base with
  | .finite _ c e => .ok ((Digits.count c + e.natAbs) * n.natAbs)
  | _ => .error .sizeOfNonFinite

/-- A whole power of a number, exactly.  An odd power keeps the sign. -/
def exactPower (base : Decimal) (n : Nat) : Decimal :=
  match base with
  | .finite s c e => .finite (s && n % 2 = 1) (c ^ n) (e * n)
  | d => d

/-! ## Through the machine -/

/-- A floating-point result as a decimal with at most `scale` digits after the point. -/
def ofBinary64 (x : Binary64) (scale : Int) : Except Failure Decimal :=
  if !x.isFinite then .error (.math .notFinite)
  else
    let exact := stripZeros x.toDecimal
    match exact with
    | .finite _ _ e => if scale < -e then roundTo exact scale else .ok exact
    | _ => .ok exact

/-- The power of two floating-point numbers, or why there is none. -/
def floatPower (ar : Arithmetic) (x y : Binary64) : Except Failure Binary64 :=
  let r := ar.elementary.pow x y
  if x.isFinite && y.isFinite && (r.isNaN || (r.isInfinite && x.isZero)) then
    .error (.math .domain)
  else if r.isInfinite then .error (.math .range)
  else .ok r

/-- The power of two decimals by way of floating-point numbers. -/
def roundedPower (ar : Arithmetic) (base exponent : Decimal) (scale : Int) :
    Except Failure Decimal := do
  ofBinary64 (← ar.floatPower (.ofDecimal base) (.ofDecimal exponent)) scale

/-- The sine of an angle in radians. -/
def sine (ar : Arithmetic) (d : Decimal) (scale : Int) : Except Failure Decimal :=
  let x := Binary64.ofDecimal d
  if x.isInfinite then .error .sineOfInfinity
  else ofBinary64 (ar.elementary.sin x) scale

/-! ## Powers -/

/-- A whole power that is small enough to be exact, or the rounded reciprocal of one. -/
def wholePower (base : Decimal) (n : Int) (scale : Int) : Except Failure Decimal :=
  if 0 ≤ n then .ok (exactPower base n.toNat)
  else if base.isZero then .error .divisionByZero
  else divide (ofInt 1) (exactPower base n.natAbs) scale

/-- A decimal to the power of another. -/
def power (ar : Arithmetic) (base exponent : Decimal) (scale : Int) : Except Failure Decimal :=
  match integralValue exponent ar.maxExactExponent with
  | none => ar.roundedPower base exponent scale
  | some n => do
    if (← powerDigits base n) ≤ ar.maxResultDigits then wholePower base n scale
    else ar.roundedPower base exponent scale

end Arithmetic

end Formula
