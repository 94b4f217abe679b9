import Formula.Binary64.Shortest
import Formula.Text.Quoted

/-!
# Values of any type

A caller may hand over a value of the wrong type: a scale that is a text, an arity that is a list.
Such a value is refused, and the message shows it.  `Value` covers what a caller can hand over, and
`Value.shown` is how a message shows it: texts quoted, the truth values and the missing value by
name, lists and dictionaries in brackets and braces.  A callable is a function or a type; how it is
shown is its own business.

`Value.kind` names the type of a value.
-/

set_option autoImplicit false

namespace Formula

/-- A value of any type that a caller can hand over. -/
inductive Value
  | null
  | bool (b : Bool)
  | integer (n : Int)
  | float (x : Binary64)
  | text (s : String)
  | list (vs : List Value)
  | dict (entries : List (String × Value))
  /-- Something that can be called, with the name of its type and the text that messages show. -/
  | callable (kind shown : String)

namespace Value

instance : Inhabited Value := ⟨null⟩

/-- A truth value by name. -/
def boolText (b : Bool) : String := if b then "True" else "False"

mutual

/-- A value as messages show it. -/
def chars : Value → List Char
  | null => "None".toList
  | bool b => (boolText b).toList
  | integer n => Digits.ofInt n
  | float x => x.text
  | text s => Text.quoted s.toList
  | list vs => '[' :: (charsOfList vs ++ [']'])
  | dict entries => '\x7b' :: (charsOfEntries entries ++ ['\x7d'])
  | callable _ shown => shown.toList

def charsOfList : List Value → List Char
  | [] => []
  | [v] => chars v
  | v :: rest => chars v ++ ',' :: ' ' :: charsOfList rest

def charsOfEntries : List (String × Value) → List Char
  | [] => []
  | [(k, v)] => Text.quoted k.toList ++ ':' :: ' ' :: chars v
  | (k, v) :: rest =>
    Text.quoted k.toList ++ ':' :: ' ' :: (chars v ++ ',' :: ' ' :: charsOfEntries rest)

end

/-- A value as messages show it. -/
def shown (v : Value) : String := String.ofList v.chars

/-- The name of the type of a value. -/
def kind : Value → String
  | null => "NoneType"
  | bool _ => "bool"
  | integer _ => "int"
  | float _ => "float"
  | text _ => "str"
  | list _ => "list"
  | dict _ => "dict"
  | callable kind _ => kind

end Value

end Formula
