import Formula.Decimal.Basic
import Formula.Failure

/-!
# Procedures

A function of the calculator is given by a `Procedure`.  It receives its arguments unevaluated, so
it decides itself which of them to evaluate, in which order and at which scale; a condition can
leave one of its branches alone.  An `Argument` is all that a procedure sees of an expression: its
value at any scale, and its text.

A procedure may return a decimal or a whole number.  Anything else that it returns is refused when
the call is evaluated, and named by its kind (`Returned.checked`).
-/

set_option autoImplicit false

namespace Formula

/-- An unevaluated argument, as a procedure sees it. -/
structure Argument where
  /-- The value of the argument at a given scale. -/
  value : Int → Except Failure Decimal
  /-- The text of the argument. -/
  text : Unit → String

/-- What a procedure returns. -/
inductive Returned
  | decimal (d : Decimal)
  | integer (n : Int)
  /-- Something that is not a number, named by its kind. -/
  | other (kind : String)
deriving DecidableEq

/-- A function of the calculator: it takes the unevaluated arguments and the scale. -/
abbrev Procedure := List Argument → Int → Except Failure Returned

/-- The number that a procedure of a given name returned. -/
def Returned.checked (name : String) : Returned → Except Failure Decimal
  | decimal d => .ok d
  | integer n => .ok (.ofInt n)
  | other kind => .error (.result name kind)

end Formula
