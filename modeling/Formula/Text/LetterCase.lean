/-!
# Letter case

Names of functions, commands and log levels are compared without regard to letter case.

* `lower` maps a character to the lower-case letter under which names are kept.  Names hold ASCII
  letters and digits, so among the characters beyond ASCII only one matters: the Kelvin sign, whose
  lower case is the letter `k`.
* `foldCase` is the key of a whole name.
* `upperLevel` is the upper case in which names of log levels are looked up.  Those names hold ASCII
  capitals and underscores, so among the characters beyond ASCII only those matter whose upper case
  is ASCII: the dotless i, the long s, the sharp s and the Latin ligatures.
-/

set_option autoImplicit false

namespace Formula.Text

/-- The lower case of a character, as far as it can meet an ASCII letter. -/
def lower (c : Char) : Char := if c = '\u212a' then 'k' else c.toLower

/-- The form in which names that differ in letter case alone agree. -/
def foldCase (s : String) : List Char := s.toList.map lower

/-- The characters beyond ASCII whose upper case is ASCII, with that upper case. -/
def asciiUpper : List (Char × String) :=
  [('\u00df', "SS"), ('\u0131', "I"), ('\u017f', "S"), ('\ufb00', "FF"), ('\ufb01', "FI"),
   ('\ufb02', "FL"), ('\ufb03', "FFI"), ('\ufb04', "FFL"), ('\ufb05', "ST"), ('\ufb06', "ST")]

/-- The upper case of a text, as far as it can be the name of a log level. -/
def upperLevel (s : String) : String :=
  String.join (s.toList.map fun c ↦ (asciiUpper.lookup c).getD (String.singleton c.toUpper))

end Formula.Text
