import Formula.Arithmetic
import Formula.Decimal.Exact

/-!
# Operators

Five binary operators chain the operands of an expression.  Each has a symbol of one character and
belongs to one of three tiers; a higher tier binds tighter, and all operators of a tier group from
left to right, the power too.

* `ofSymbol?` and `symbol` are inverse to each other (`ofSymbol?_symbol`, `symbol_of_ofSymbol?`).
* `apply` computes the value of an operator on two decimals.
-/

set_option autoImplicit false

namespace Formula

/-- The binary operators. -/
inductive Operator
  | plus
  | minus
  | times
  | divide
  | power
deriving DecidableEq, Inhabited

namespace Operator

/-- The character that stands for the operator. -/
def symbol : Operator → Char
  | plus => '+'
  | minus => '-'
  | times => '*'
  | divide => '/'
  | power => '^'

/-- How tightly the operator binds. -/
def tier : Operator → Nat
  | plus | minus => 0
  | times | divide => 1
  | power => 2

/-- The operators, in the order in which symbols are looked up. -/
def all : List Operator := [plus, minus, times, divide, power]

/-- The operator that a character stands for. -/
def ofSymbol? (c : Char) : Option Operator := all.find? (·.symbol = c)

theorem ofSymbol?_symbol (op : Operator) : ofSymbol? op.symbol = some op := by
  cases op <;> rfl

theorem symbol_of_ofSymbol? {c : Char} {op : Operator} (h : ofSymbol? c = some op) :
    op.symbol = c := by
  simpa using List.find?_some h

theorem tier_lt (op : Operator) : op.tier < 3 := by
  cases op <;> decide

/-- The value of the operator on two operands, inexact results having at most `scale` digits after
the point. -/
def apply (ar : Arithmetic) (op : Operator) (a b : Decimal) (scale : Int) :
    Except Failure Decimal :=
  match op with
  | plus => a.add b
  | minus => a.sub b
  | times => a.mul b
  | divide => a.divide b scale
  | power => ar.power a b scale

end Operator

end Formula
