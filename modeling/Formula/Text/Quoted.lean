import Formula.Text.Printable

/-!
# Quoted texts

A message that shows a text from outside shows it between quotes, so that blanks at its ends and
characters without a visible mark can be seen.

* `quoteMark` — the mark is the apostrophe, and the double quote for a text that holds an
  apostrophe and no double quote; then neither needs an escape.
* `escaped` — a backslash, the mark itself, and the three common control characters are written
  with a backslash and one character; any other character without a visible mark by its code
  point, in two, four or eight lower-case hexadecimal digits.
* `quoted` — the whole text between two marks.
-/

set_option autoImplicit false

namespace Formula.Text

/-- The last `width` hexadecimal digits of `n`, in lower case. -/
def hexDigits : Nat → Nat → List Char
  | 0, _ => []
  | width + 1, n => hexDigits width (n / 16) ++ [Nat.digitChar (n % 16)]

/-- The quotation mark for a text. -/
def quoteMark (cs : List Char) : Char :=
  if cs.contains '\'' && !cs.contains '"' then '"' else '\''

/-- A character by its code point. -/
def byCodePoint (c : Char) : List Char :=
  if c.toNat < 0x100 then '\\' :: 'x' :: hexDigits 2 c.toNat
  else if c.toNat < 0x10000 then '\\' :: 'u' :: hexDigits 4 c.toNat
  else '\\' :: 'U' :: hexDigits 8 c.toNat

/-- One character of a quoted text. -/
def escaped (mark c : Char) : List Char :=
  if c = '\\' || c = mark then ['\\', c]
  else if c = '\n' then ['\\', 'n']
  else if c = '\r' then ['\\', 'r']
  else if c = '\t' then ['\\', 't']
  else if isPrintable c then [c]
  else byCodePoint c

/-- The text between quotation marks, with the characters that need it escaped. -/
def quoted (cs : List Char) : List Char :=
  let mark := quoteMark cs
  mark :: (cs.flatMap (escaped mark) ++ [mark])

/-- `quoted` for strings. -/
def quotedString (s : String) : String := String.ofList (quoted s.toList)

end Formula.Text
