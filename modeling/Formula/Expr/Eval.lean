import Formula.Expr.Render

/-!
# The value of an expression

`eval` computes the value of an expression at a scale, the number of digits that inexact results
keep after the point.  A chain is folded from left to right, whatever its operators are; an operand
is evaluated before the operator to its left is applied, so of several failures the leftmost is
reported.  A call hands its arguments to the procedure unevaluated.

* `evalLinks_append` — a chain can be evaluated in two parts.
-/

set_option autoImplicit false

namespace Formula.Expr

mutual

/-- The value of an expression at a scale. -/
def eval (ar : Arithmetic) : Expr → Int → Except Failure Decimal
  | const d, _ => .ok d
  | chain _ head links, scale => do evalLinks ar (← eval ar head scale) links scale
  | call name procedure arguments, scale => do
    (← procedure (argumentsOf ar arguments) scale).checked name

/-- The value of a chain whose operands so far have the value `acc`. -/
def evalLinks (ar : Arithmetic) (acc : Decimal) :
    List (Operator × Expr) → Int → Except Failure Decimal
  | [], _ => .ok acc
  | (op, e) :: rest, scale => do
    evalLinks ar (← op.apply ar acc (← eval ar e scale) scale) rest scale

/-- The arguments of a call as its procedure sees them. -/
def argumentsOf (ar : Arithmetic) : List Expr → List Argument
  | [] => []
  | e :: rest => ⟨fun scale ↦ eval ar e scale, fun _ ↦ e.text⟩ :: argumentsOf ar rest

end

theorem evalLinks_append (ar : Arithmetic) (acc : Decimal) (ls ms : List Link) (scale : Int) :
    evalLinks ar acc (ls ++ ms) scale =
      (evalLinks ar acc ls scale).bind fun d ↦ evalLinks ar d ms scale := by
  induction ls generalizing acc with
  | nil => rfl
  | cons l ls ih =>
    obtain ⟨op, e⟩ := l
    simp only [List.cons_append, evalLinks]
    cases eval ar e scale with
    | error f => rfl
    | ok d =>
      simp only [bind, Except.bind]
      cases op.apply ar acc d scale with
      | error f => rfl
      | ok d => exact ih d

end Formula.Expr
