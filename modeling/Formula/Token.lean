import Formula.Text.Quoted

/-!
# Tokens

An expression is read as a list of tokens.  A word is a longest run of word characters: the digits,
and outside the strict language the ASCII letters and the point as well.  A word that begins with a
letter is a name, any other word is meant as a number.  Control characters and the space (`isGap`)
only separate tokens.  Every other character is a symbol by itself, whether or not any rule knows
what to do with it: wrong symbols are reported by whoever reads the tokens.

* `Token.scan strict 0 cs` — the tokens of a text, each with the position of its first character.
  The list ends with the token `finish`, whose position is the length of the text.
* `Token.shown` — a token as messages show it.
-/

set_option autoImplicit false

namespace Formula

/-- What a token consists of. -/
inductive Lexeme
  /-- A word that begins with a digit or a point. -/
  | number (word : List Char)
  /-- A word that begins with a letter. -/
  | name (word : List Char)
  /-- A character that is neither part of a word nor a gap. -/
  | symbol (char : Char)
  /-- The end of the text. -/
  | finish
deriving DecidableEq, Inhabited

/-- A lexeme and the position of its first character. -/
structure Token where
  lexeme : Lexeme
  position : Nat
deriving DecidableEq, Inhabited

namespace Lexeme

/-- The characters of the text that the lexeme stands for. -/
def text : Lexeme → List Char
  | number word => word
  | name word => word
  | symbol c => [c]
  | finish => []

/-- Is the lexeme a word? -/
def isWord : Lexeme → Bool
  | number _ => true
  | name _ => true
  | _ => false

end Lexeme

namespace Token

/-- The characters that separate tokens. -/
def isGap (c : Char) : Bool := c.toNat ≤ 32

/-- The characters of words. -/
def isWordChar (strict : Bool) (c : Char) : Bool :=
  c.isDigit || (!strict && (c.isAlpha || c = '.'))

/-- A word as a lexeme: a name if its first character is a letter. -/
def ofWord (c : Char) (cs : List Char) : Lexeme :=
  if c.isAlpha then .name (c :: cs) else .number (c :: cs)

/-- The tokens of a text that begins at a given position. -/
def scan (strict : Bool) (position : Nat) (cs : List Char) : List Token :=
  match cs with
  | [] => [⟨.finish, position⟩]
  | c :: cs =>
    if isGap c then scan strict (position + 1) cs
    else if isWordChar strict c then
      let word := cs.takeWhile (isWordChar strict)
      ⟨ofWord c word, position⟩ ::
        scan strict (position + 1 + word.length) (cs.dropWhile (isWordChar strict))
    else ⟨.symbol c, position⟩ :: scan strict (position + 1) cs
termination_by cs.length
decreasing_by
  · simp
  · have := (List.dropWhile_suffix (l := cs) (isWordChar strict)).length_le
    simp only [List.length_cons]
    omega
  · simp

/-- The tokens of a text. -/
def ofText (strict : Bool) (text : String) : List Token := scan strict 0 text.toList

/-- A token as messages show it. -/
def shown (t : Token) : String :=
  match t.lexeme with
  | .finish => "end of input"
  | lexeme => String.ofList (Text.quoted lexeme.text)

end Token

end Formula
