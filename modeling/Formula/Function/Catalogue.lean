import Formula.Decimal.Exact
import Formula.Decimal.Order
import Formula.Function.Builtin

/-!
# A catalogue of procedures

A host that lets its users register functions needs procedures to offer.  The catalogue holds some
that cover the ways in which a procedure can treat its arguments (evaluate all of them, some of
them, none, at another scale, or show their text) and the ways in which it can end (with a decimal,
with a whole number, with something else, with an error of the calculator or with any other one).

`Procedure.named?` finds a procedure by its name in the catalogue.
-/

set_option autoImplicit false

namespace Formula.Procedure

/-- The argument times a whole number. -/
def multiple (n : Int) : Procedure := unary fun a scale ↦ do
  return .decimal (← (← a.value scale).mul (.ofInt n))

/-- The larger of two arguments, the first on a tie. -/
def larger : Procedure := binary fun a b scale ↦ do
  return .decimal (← (← a.value scale).max (← b.value scale))

/-- The sum of three arguments. -/
def sum : Procedure := ternary fun a b c scale ↦ do
  return .decimal (← (← (← a.value scale).add (← b.value scale)).add (← c.value scale))

/-- The first argument at a scale that may depend on the given one. -/
def firstAt (rescale : Int → Int) : Procedure
  | a :: _, scale => do return .decimal (← a.value (rescale scale))
  | [], _ => .error wrongCount

/-- The text of the first argument, as an error of the calculator. -/
def reveal : Procedure
  | a :: _, _ => .error (.raised ⟨a.text (), Fault.evaluationCode⟩)
  | [], _ => .error wrongCount

/-- A result that does not depend on the arguments. -/
def always (r : Returned) : Procedure := fun _ _ ↦ .ok r

/-- A failure that does not depend on the arguments. -/
def failing (f : Failure) : Procedure := fun _ _ ↦ .error f

/-- The procedures of the catalogue with their names. -/
def catalogue : List (String × Procedure) :=
  [("id", firstAt id), ("first", firstAt id), ("at_zero", firstAt fun _ ↦ 0),
   ("twice", multiple 2), ("thrice", multiple 3), ("max", larger), ("sum3", sum),
   ("seven", always (.integer 7)), ("bigint", always (.integer (-Nat.pow 10 40))),
   ("scale", fun _ scale ↦ .ok (.integer scale)), ("show", reveal),
   ("float", always (.other "float")), ("text", always (.other "str")),
   ("none", always (.other "NoneType")), ("bool", always (.other "bool")),
   ("nan", always (.decimal (.nan false))), ("inf", always (.decimal (.infinity false))),
   ("zerodiv", failing .zeroDivisor), ("value_error", failing (.value "bad value")),
   ("key_error", failing (.abrupt "KeyError" "'missing'")),
   ("runtime", failing (.abrupt "RuntimeError" "broken")),
   ("na_token", failing (.raised ⟨"#NA", Fault.evaluationCode⟩)),
   ("eval_error", failing (.raised ⟨"custom failure", "CUSTOM"⟩))]

/-- The procedure of a given name in the catalogue. -/
def named? (name : String) : Option Procedure := catalogue.lookup name

end Formula.Procedure
