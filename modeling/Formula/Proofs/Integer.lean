import Formula.Arithmetic
import Formula.Proofs.Grammar

/-!
# Integer expressions

An integer expression has numbers of digits only, signs, groups, and the operators `+ - * ^`.  What
it denotes is school arithmetic and needs neither decimals nor a tree.  It is said here as a grammar
with values: with `sign` one of `+` and `-`,

* `Sum = Product ((+ | -) Product)*`
* `Product = Power (* Power)*`
* `Power = Operand (^ Operand)*`
* `Operand = sign* (DIGITS | ( Sum ))`

where each of the three chains is folded from left to right, the power too, and a sign belongs to
the operand after it.  `Sum dialect ar n ls z` says that the lexemes `ls` spell a sum that denotes
the integer `z`, in which groups are nested at most `n` levels deep.

Only powers within the limits of the arithmetic have a rule: the exponent is not negative and not
beyond the bound, and the digits of the base, as often as the exponent says, are not too many.
Every power of exponent zero is `1`, that of zero included.

That the calculator shows this integer is proved in `Formula.Proofs.Integer.Calculate`.
-/

set_option autoImplicit false

-- Powers are those of the core library.
attribute [local instance (high)] instPowNat

namespace Formula.Integer

open Grammar

/-- An integer with its sign in front of it. -/
def withSign (negative : Bool) (z : Int) : Int := if negative then -z else z

variable (dialect : Dialect) (ar : Arithmetic)

mutual

/-- A number or a group, with its signs. -/
inductive Operand : Nat → List Lexeme → Int → Prop
  | digits {n : Nat} {ss : List Lexeme} {negative : Bool} {word : List Char} :
      Signs dialect ss negative → word ≠ [] → (∀ c ∈ word, c.isDigit) →
      Operand n (ss ++ [.number word]) (withSign negative (Digits.value word))
  | group {n : Nat} {ss ls : List Lexeme} {negative : Bool} {z : Int} :
      Signs dialect ss negative → Sum n ls z →
      Operand (n + 1) (ss ++ .symbol '(' :: ls ++ [.symbol ')']) (withSign negative z)

/-- Powers, from left to right, within the limits of the arithmetic. -/
inductive Power : Nat → List Lexeme → Int → Prop
  | operand {n : Nat} {ls : List Lexeme} {z : Int} : Operand n ls z → Power n ls z
  | power {n k : Nat} {ls ms : List Lexeme} {b : Int} :
      Power n ls b → Operand n ms k → (k : Int) ≤ ar.maxExactExponent →
      ((Digits.count b.natAbs * k : Nat) : Int) ≤ ar.maxResultDigits →
      Power n (ls ++ .symbol '^' :: ms) (b ^ k)

/-- Products, from left to right. -/
inductive Product : Nat → List Lexeme → Int → Prop
  | power {n : Nat} {ls : List Lexeme} {z : Int} : Power n ls z → Product n ls z
  | times {n : Nat} {ls ms : List Lexeme} {a b : Int} :
      Product n ls a → Power n ms b → Product n (ls ++ .symbol '*' :: ms) (a * b)

/-- Sums and differences, from left to right. -/
inductive Sum : Nat → List Lexeme → Int → Prop
  | product {n : Nat} {ls : List Lexeme} {z : Int} : Product n ls z → Sum n ls z
  | plus {n : Nat} {ls ms : List Lexeme} {a b : Int} :
      Sum n ls a → Product n ms b → Sum n (ls ++ .symbol '+' :: ms) (a + b)
  | minus {n : Nat} {ls ms : List Lexeme} {a b : Int} :
      Sum n ls a → Product n ms b → Sum n (ls ++ .symbol '-' :: ms) (a - b)

end

end Formula.Integer
