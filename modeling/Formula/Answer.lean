import Formula.Text.JsonString
import Formula.Value

/-!
# Answers

An `Answer` is what the calculator has to say about a text: its value or an error token, and the
text of the grouped expression if there is one.

* `output` — the single text that a user sees.
* `fields` — the parts that are present, in the order in which they are listed.
* `json` — the answer as a JSON object on one line, with the expression or without it.
* `shown` — the answer as messages show it.
-/

set_option autoImplicit false

namespace Formula

/-- What the calculator has to say about a text. -/
structure Answer where
  ok : Bool
  result : Option String := none
  error : Option String := none
  tree : Option String := none
deriving DecidableEq

namespace Answer

/-- The answer to a text without an expression. -/
def blank : Answer := { ok := true, result := some "" }

/-- The text that a user sees. -/
def output (a : Answer) : String :=
  if a.ok then a.result.getD "" else a.error.getD ""

/-- The texts of an answer that are present, with their names. -/
def fields (a : Answer) : List (String × String) :=
  [("result", a.result), ("error", a.error), ("tree", a.tree)].filterMap fun (name, text) ↦
    text.map (name, ·)

/-- The answer as a JSON object. -/
def json (a : Answer) (withTree : Bool) : String :=
  let shown := if withTree then a else { a with tree := none }
  let members := (Text.jsonString "ok" ++ (if a.ok then ": true" else ": false")) ::
    shown.fields.map fun (name, text) ↦ Text.jsonString name ++ ": " ++ Text.jsonString text
  "\x7b" ++ ", ".intercalate members ++ "\x7d"

/-- A text between quotation marks, or the missing value. -/
def quote (text : Option String) : String :=
  match text with
  | some s => Text.quotedString s
  | none => Value.null.shown

/-- The answer as messages show it. -/
def shown (a : Answer) : String :=
  if a.ok then
    let parts := s!"ok={Value.boolText a.ok}" ::
      ([("result", a.result), ("tree", a.tree)].filterMap fun (name, text) ↦
        text.map fun s ↦ s!"{name}={Text.quotedString s}")
    "EvalResult(" ++ ", ".intercalate parts ++ ")"
  else s!"EvalResult(ok={Value.boolText a.ok}, error={quote a.error})"

/-- A text without an expression is answered by nothing. -/
theorem output_blank : blank.output = "" := rfl

end Answer

end Formula
