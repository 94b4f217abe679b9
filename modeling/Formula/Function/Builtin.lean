import Formula.Function.Registry

/-!
# The built-in functions

* `SIN(x)` — the sine of an angle in radians, computed by the machine.
* `IF(condition, then, else)` — evaluates the condition, and then only the branch that it selects: a
  condition other than zero selects the first.
* `ROUND(value, digits)` — the value rounded to a number of places, which is evaluated at the scale
  zero and has to be a whole number within the bound of the arithmetic.
-/

set_option autoImplicit false

namespace Formula

namespace Procedure

/-- A call with a number of arguments that the procedure does not take. -/
def wrongCount : Failure := .abrupt "TypeError" "wrong number of arguments"

/-- A procedure of one argument. -/
def unary (f : Argument → Int → Except Failure Returned) : Procedure
  | [a], scale => f a scale
  | _, _ => .error wrongCount

/-- A procedure of two arguments. -/
def binary (f : Argument → Argument → Int → Except Failure Returned) : Procedure
  | [a, b], scale => f a b scale
  | _, _ => .error wrongCount

/-- A procedure of three arguments. -/
def ternary (f : Argument → Argument → Argument → Int → Except Failure Returned) : Procedure
  | [a, b, c], scale => f a b c scale
  | _, _ => .error wrongCount

/-- The sine of the argument. -/
def sine (ar : Arithmetic) : Procedure := unary fun x scale ↦ do
  return .decimal (← ar.sine (← x.value scale) scale)

/-- The second argument if the first is not zero, the third if it is. -/
def choose : Procedure := ternary fun condition whenNotZero whenZero scale ↦ do
  if (← condition.value scale).isZero then return .decimal (← whenZero.value scale)
  else return .decimal (← whenNotZero.value scale)

/-- The first argument rounded to the number of places given by the second. -/
def round (ar : Arithmetic) : Procedure := binary fun x places scale ↦ do
  let d ← x.value scale
  match (← places.value 0).integralValue ar.maxRoundingDigits with
  | none => .error .precision
  | some n => return .decimal (← d.roundTo n)

end Procedure

namespace Registry

/-- The built-in functions. -/
def builtins (ar : Arithmetic) : Registry :=
  ⟨[⟨"sin", ⟨1, .whole⟩, .sine ar⟩, ⟨"if", ⟨3, .whole⟩, .choose⟩,
    ⟨"round", ⟨2, .whole⟩, .round ar⟩]⟩

end Registry

end Formula
