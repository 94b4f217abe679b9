import Formula.Function.Procedure
import Formula.Operator

/-!
# Expressions

An expression is read into a tree that keeps the order in which it was written.  Three things occur
in it.

* A constant.
* A chain `head op₁ operand₁ op₂ operand₂ …`.  Every pair of parentheses is a chain, and so is the
  whole input.  Operators of different tiers may follow each other in a chain; what that means is
  the business of `Expr.group`, which introduces chains of its own for the tighter ones, and marks
  them as introduced.
* A call of a function, with the name and the procedure that the function had when the expression
  was read.

`negated` puts a sign in front of a group or a call: it becomes the first factor of a product.
-/

set_option autoImplicit false

namespace Formula

/-- An expression. -/
inductive Expr
  | const (value : Decimal)
  /-- A chain of operands, folded from left to right.  `introduced` marks a chain that stands for no
  parentheses of the input. -/
  | chain (introduced : Bool) (head : Expr) (links : List (Operator × Expr))
  /-- A call of the function `name`, which is computed by `procedure`. -/
  | call (name : String) (procedure : Procedure) (arguments : List Expr)

/-- An operator and the operand to its right. -/
abbrev Link := Operator × Expr

namespace Expr

instance : Inhabited Expr := ⟨const default⟩

/-- The expression with a minus sign in front of it. -/
def negated (e : Expr) : Expr := chain false (const (.finite true 1 0)) [(.times, e)]

end Expr

end Formula
