import Formula.Expr.Render

/-!
# Rendered expressions as input

The text of an expression is nearly one that can be entered again.  The braces around introduced
chains have to become parentheses, and the parentheses around the whole text, which stand for the
input itself, have to go.  This file says what is entered then, and what cannot be expected to come
back.

* `Expr.inputText` — the text of an expression, as it can be entered.
* `nesting` — the number of parentheses of a text that are open at once.
* `Decimal.plainForm` — the decimal that the plain notation of a decimal denotes.  A zero has lost
  its sign, and a positive exponent has been written out.
* `Expr.plainForm` — the expression with its constants in plain form, and without the marks on
  introduced chains.

That the plain form is what is read is proved in `Formula.Proofs.Rendering.Reparse`.
-/

set_option autoImplicit false

-- Powers are those of the core library.
attribute [local instance (high)] instPowNat

namespace Formula

/-! ## What is entered -/

/-- Braces are written as parentheses. -/
def unbrace (c : Char) : Char := if c = '\x7b' then '(' else if c = '\x7d' then ')' else c

namespace Expr

/-- The text of an expression with parentheses around all chains. -/
def unbraced (e : Expr) : List Char := e.render.map unbrace

/-- The text of an expression without the outer pair of parentheses. -/
def inputText (e : Expr) : String := String.ofList e.unbraced.tail.dropLast

end Expr

/-- The largest number of parentheses that are open at once, if `outer` are open before the text. -/
def nesting (outer : Nat) : List Char → Nat
  | [] => outer
  | c :: cs => max outer
      (nesting (if c = '(' then outer + 1 else if c = ')' then outer - 1 else outer) cs)

/-! ## What comes back -/

/-- The decimal that the plain notation of a decimal denotes. -/
def Decimal.plainForm : Decimal → Decimal
  | finite s c e =>
    if 0 ≤ e then finite (s && c ≠ 0) (c * 10 ^ e.toNat) 0 else finite (s && c ≠ 0) c e
  | d => d

theorem Decimal.plainForm_of_nonneg {e : Int} (he : 0 ≤ e) (s : Bool) (c : Nat) :
    (finite s c e).plainForm = finite (s && c ≠ 0) (c * 10 ^ e.toNat) 0 := if_pos he

theorem Decimal.plainForm_of_neg {e : Int} (he : e < 0) (s : Bool) (c : Nat) :
    (finite s c e).plainForm = finite (s && c ≠ 0) c e := if_neg (Int.not_le.2 he)

namespace Expr

mutual

/-- The expression with its constants in plain form, and no chain marked as introduced. -/
def plainForm : Expr → Expr
  | const d => const d.plainForm
  | chain _ head links => chain false (plainForm head) (plainLinks links)
  | call name procedure arguments => call name procedure (plainArguments arguments)

/-- `plainForm` for all operands of a chain. -/
def plainLinks : List (Operator × Expr) → List (Operator × Expr)
  | [] => []
  | (op, e) :: rest => (op, plainForm e) :: plainLinks rest

/-- `plainForm` for all arguments of a call. -/
def plainArguments : List Expr → List Expr
  | [] => []
  | e :: rest => plainForm e :: plainArguments rest

end

end Expr

end Formula
