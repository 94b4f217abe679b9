import Formula.Parse

/-!
# The grammar of expressions

What the reader of `Formula.Parse.Reader` does one token at a time is said here as a grammar.  With
`sign` one of `+` and `-`, and `op` one of the five operators, it is

* `Chain = Operand (op Operand)*`
* `Operand = sign* (NUMBER | ( Chain ) | NAME ( Arguments ))`
* `Arguments = Chain (, Chain)*`, as many chains as the arity of the function says.

Each rule comes with the part of the expression that it stands for, so `Chain ctx n ls head links`
says that the lexemes `ls` spell the chain with this head and these links, in which groups and calls
are nested at most `n` levels deep.  A word is a number by the rule
`NUMBER = (digits [. digits*] | . digits) [e|E digits]` (`Literal`), within the bound of the dialect
for exponents.  The strict language has no signs, no names, and only digits in its numbers.

`Spells ctx n ls e` — the lexemes of a whole text spell the expression `e`.

Nothing here depends on the reader.  That the two agree is proved in
`Formula.Proofs.Grammar.Reading`.
-/

set_option autoImplicit false

namespace Formula.Grammar

open Reader

/-! ## Number literals -/

/-- `digits [. digits*] | . digits`, with the digits before and after the point. -/
inductive Mantissa : (word whole fraction : List Char) → Prop
  | whole {ds : List Char} : ds ≠ [] → (∀ c ∈ ds, c.isDigit) → Mantissa ds ds []
  | both {ds fs : List Char} : ds ≠ [] → (∀ c ∈ ds, c.isDigit) → (∀ c ∈ fs, c.isDigit) →
      Mantissa (ds ++ '.' :: fs) ds fs
  | fraction {fs : List Char} : fs ≠ [] → (∀ c ∈ fs, c.isDigit) → Mantissa ('.' :: fs) [] fs

/-- `[e|E digits]`, with the number that the digits denote. -/
inductive Exponent : (word : List Char) → (value : Nat) → Prop
  | none : Exponent [] 0
  | some {c : Char} {ds : List Char} : c = 'e' ∨ c = 'E' → ds ≠ [] → (∀ d ∈ ds, d.isDigit) →
      Exponent (c :: ds) (Digits.value ds)

/-- A word that denotes a decimal: the digits of the coefficient are those on both sides of the
point, and every digit after the point lowers the exponent by one.  Neither that exponent nor the
exponent of the leading digit may be out of bounds.  (The decimal also has to be one that can be
held at all; `fits_of_magnitude_le` says that every bound of at most eighteen digits implies it.) -/
inductive Literal (dialect : Dialect) : (word : List Char) → Decimal → Prop
  | intro {mantissa whole fraction tail : List Char} {n c : Nat} {e : Int}
      (hmantissa : Mantissa mantissa whole fraction) (htail : Exponent tail n)
      (hc : c = Digits.value (whole ++ fraction)) (he : e = n - fraction.length)
      (hstrict : dialect.strict → ∀ d ∈ mantissa ++ tail, d.isDigit)
      (hmagnitude : (Decimal.magnitude c e).natAbs ≤ dialect.maxLiteralExponent)
      (hexponent : e.natAbs ≤ dialect.maxLiteralExponent)
      (hfits : (Decimal.finite false c e).fits) :
      Literal dialect (mantissa ++ tail) (.finite false c e)

/-! ## Signs -/

/-- A list of signs.  It is negative if it has an odd number of minus signs. -/
structure Signs (dialect : Dialect) (ls : List Lexeme) (negative : Bool) : Prop where
  mem : ∀ l ∈ ls, dialect.strict = false ∧ (l = .symbol '+' ∨ l = .symbol '-')
  odd : negative = decide (ls.count (.symbol '-') % 2 = 1)

/-- A number with its sign. -/
def signedNumber (negative : Bool) (d : Decimal) : Expr := .const (if negative then d.negate else d)

/-- A group or a call with its sign: a minus sign is a product with `-1`. -/
def signed (negative : Bool) (e : Expr) : Expr :=
  if negative then .chain false (.const (.finite true 1 0)) [(.times, e)] else e

/-! ## Chains -/

/-- The argument that a chain stands for: a single operand needs no chain around it. -/
def argumentOf (head : Expr) (links : List Link) : Expr :=
  if links = [] then head else .chain false head links

variable (ctx : Context)

mutual

/-- An operand, in which groups and calls are nested at most so many levels deep. -/
inductive Operand : Nat → List Lexeme → Expr → Prop
  | number {n : Nat} {ss : List Lexeme} {negative : Bool} {word : List Char} {d : Decimal} :
      Signs ctx.dialect ss negative → Literal ctx.dialect word d →
      Operand n (ss ++ [.number word]) (signedNumber negative d)
  | group {n : Nat} {ss ls : List Lexeme} {negative : Bool} {head : Expr} {links : List Link} :
      Signs ctx.dialect ss negative → Chain n ls head links →
      Operand (n + 1) (ss ++ .symbol '(' :: ls ++ [.symbol ')'])
        (signed negative (.chain false head links))
  | call {n : Nat} {ss ls : List Lexeme} {negative : Bool} {name : List Char} {f : Declaration}
      {es : List Expr} :
      Signs ctx.dialect ss negative → ctx.dialect.strict = false →
      ctx.functions.lookup? (String.ofList name) = some f → f.arity.isCounted →
      Arguments n f.arity.count ls es →
      Operand (n + 1) (ss ++ .name name :: .symbol '(' :: ls ++ [.symbol ')'])
        (signed negative (.call f.name f.procedure es))

/-- A chain with its head and its links. -/
inductive Chain : Nat → List Lexeme → Expr → List (Operator × Expr) → Prop
  | single {n : Nat} {ls : List Lexeme} {e : Expr} : Operand n ls e → Chain n ls e []
  | link {n : Nat} {ls ms : List Lexeme} {head e : Expr} {links : List Link} (op : Operator) :
      Chain n ls head links → Operand n ms e →
      Chain n (ls ++ .symbol op.symbol :: ms) head (links ++ [(op, e)])

/-- The arguments of a call, so many of them. -/
inductive Arguments : Nat → Nat → List Lexeme → List Expr → Prop
  | first {n : Nat} {ls : List Lexeme} {head : Expr} {links : List Link} :
      Chain n ls head links → Arguments n 1 ls [argumentOf head links]
  | next {n k : Nat} {ls ms : List Lexeme} {es : List Expr} {head : Expr} {links : List Link} :
      Arguments n k ls es → Chain n ms head links →
      Arguments n (k + 1) (ls ++ .symbol ',' :: ms) (es ++ [argumentOf head links])

end

/-- The lexemes of a text spell an expression in which groups and calls are nested at most `n`
levels deep. -/
def Spells (n : Nat) (ls : List Lexeme) (e : Expr) : Prop :=
  ∃ head links, Chain ctx n ls head links ∧ e = .chain false head links

/-- The lexemes of a text, without the end. -/
def lexemes (strict : Bool) (text : String) : List Lexeme :=
  (Token.ofText strict text).dropLast.map Token.lexeme

end Formula.Grammar
