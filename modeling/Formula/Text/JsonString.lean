import Formula.Text.Quoted

/-!
# Strings in JSON output

Results can be printed as JSON, in ASCII.  A string stands between double quotes; the double quote,
the backslash and the five control characters with a short form are written with a backslash and
one character, and every other character outside the visible part of ASCII by its UTF-16 code
units, four hexadecimal digits each.
-/

set_option autoImplicit false

namespace Formula.Text

/-- One UTF-16 code unit, written out. -/
def jsonUnit (n : Nat) : List Char := '\\' :: 'u' :: hexDigits 4 n

/-- One character of a JSON string. -/
def jsonEscaped (c : Char) : List Char :=
  if c = '"' || c = '\\' then ['\\', c]
  else if c = '\n' then ['\\', 'n']
  else if c = '\r' then ['\\', 'r']
  else if c = '\t' then ['\\', 't']
  else if c = '\x08' then ['\\', 'b']
  else if c = '\x0c' then ['\\', 'f']
  else if 0x20 ≤ c.toNat && c.toNat < 0x7f then [c]
  else if c.toNat < 0x10000 then jsonUnit c.toNat
  else
    jsonUnit (0xd800 + (c.toNat - 0x10000) / 0x400) ++
      jsonUnit (0xdc00 + (c.toNat - 0x10000) % 0x400)

/-- A text as a JSON string. -/
def jsonString (s : String) : String :=
  String.ofList ('"' :: (s.toList.flatMap jsonEscaped ++ ['"']))

end Formula.Text
