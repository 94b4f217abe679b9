import Formula.Decimal.Basic

/-!
# Number literals

A number in an expression is written with the digits `0` to `9`, a point with digits on at least one
side of it, and possibly a decimal exponent: `12`, `1.50`, `.5`, `5.`, `1e3`.  The exponent has no
sign of its own, since a sign ends a word.

* `literal?` reads a whole word.  The exponent of the result is the written exponent less the number
  of digits after the point, so `1.50` keeps its last zero.
* `fits` says that a decimal can be held at all: the exponent of its leading digit has at most
  eighteen digits.
-/

set_option autoImplicit false

namespace Formula.Decimal

/-- The decimal with the digits `whole` before and `fraction` after the point, times ten to the
power `exponent`. -/
def ofParts (whole fraction : List Char) (exponent : Int) : Decimal :=
  finite false (Digits.value (whole ++ fraction)) (exponent - fraction.length)

/-- What follows the digits of a literal: nothing, or the exponent. -/
def literalExponent? : List Char → Option Nat
  | [] => some 0
  | c :: ds =>
    if (c = 'e' ∨ c = 'E') ∧ ds ≠ [] ∧ ds.all Char.isDigit then some (Digits.value ds) else none

/-- The digits after the point of a literal, and what follows them. -/
def literalFraction : List Char → List Char × List Char
  | '.' :: rest => rest.span Char.isDigit
  | rest => ([], rest)

/-- The decimal that a word denotes, if it is a number literal. -/
def literal? (word : List Char) : Option Decimal :=
  let (whole, rest) := word.span Char.isDigit
  let (fraction, rest) := literalFraction rest
  if whole = [] ∧ fraction = [] then none
  else (literalExponent? rest).map fun n ↦ ofParts whole fraction n

/-- The largest exponent that a leading digit can have. -/
def largestExponent : Int := 999999999999999999

/-- Can the decimal be held? -/
def fits : Decimal → Bool
  | finite _ c e => magnitude c e ≤ largestExponent
  | _ => true

end Formula.Decimal
