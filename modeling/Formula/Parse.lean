import Formula.Expr.Group
import Formula.Expr.Render
import Formula.Parse.Reader

/-!
# Parsing

`parseRaw` reads a text into the expression as it is written, `parse` groups it by tiers as well.  A
text without tokens is no expression and no error either.

Both come with the records of what happened.  Every group and every argument that was
closed leaves a record, in order, and then there is one about the outcome: that the text is empty,
why it was rejected, or the grouped expression.  A text that is too long is turned away before it is
looked at, and leaves no record.

An arity that cannot be counted to is not the fault of the text, and neither is a host that has no
room to group an expression.  Such a reading ends without an outcome (`Unreadable`).
-/

set_option autoImplicit false

namespace Formula

/-- A reading that ends without a result. -/
inductive Unreadable
  /-- The text is not an expression. -/
  | rejected (error : ParseError)
  /-- The text calls a function whose arity cannot be counted to. -/
  | uncounted (function : String)
  /-- The host has no room to group the expression. -/
  | exhausted (exhaustion : Exhaustion)

namespace Parser

open Reader Log

/-- A record of the parser. -/
def note (message : String) : Record := .debug "parser" message

/-- The records of the groups and arguments that were closed, given in reverse. -/
def closingRecords (closings : List Char) : List Record :=
  closings.reverse.map fun c ↦
    note s!"sub-term parsing success; closed by {String.ofList (Text.quoted [c])}"

/-- What the log says of a text that is rejected. -/
def rejection : ParseError → Record
  | .tooDeepToFollow => note "parsing failed; recursion limit reached"
  | e => note s!"parsing failed; {e.message}"

/-- The outcome of a reading that stops. -/
def stopped {α : Type} (stop : Stop) : Logged (Except Unreadable α) :=
  match stop.cause with
  | .rejected e => ⟨closingRecords stop.closings ++ [rejection e], .error (.rejected e)⟩
  | .uncounted f => ⟨closingRecords stop.closings, .error (.uncounted f)⟩

/-- The expression that a list of tokens denotes, without the token at the end. -/
def readTokens (ctx : Context) (ts : List Token) : Logged (Except Unreadable Expr) :=
  if ctx.dialect.maxDepth < 0 then
    stopped ⟨[], .rejected (.tooDeep ctx.dialect.maxDepth)⟩
  else match run ctx start ts with
    | .error stop => stopped stop
    | .ok s => match s.finish with
      | .error stop => stopped stop
      | .ok e => ⟨closingRecords s.closings, .ok e⟩

/-- The expression that a text denotes, as it is written; nothing if the text has no tokens. -/
def parseRaw (ctx : Context) (text : String) :
    Logged (Except Unreadable (Option Expr)) :=
  if ctx.dialect.maxLength < text.length then
    ⟨[], .error (.rejected (.tooLong ctx.dialect.maxLength))⟩
  else match (Token.ofText ctx.dialect.strict text).dropLast with
    | [] => ⟨[note "parsing finished; empty input"], .ok none⟩
    | ts => (readTokens ctx ts).map (Except.map some)

/-- The expression that a text denotes, grouped by tiers; nothing if the text has no tokens. -/
def parse (ctx : Context) (text : String) :
    Logged (Except Unreadable (Option Expr)) :=
  let raw := parseRaw ctx text
  match raw.value with
  | .ok (some e) =>
    match ctx.host.groupingFault? e with
    | some exhaustion => ⟨raw.records, .error (.exhausted exhaustion)⟩
    | none =>
      let grouped := e.group
      ⟨raw.records ++ [note s!"parsing success: {grouped.text}"], .ok (some grouped)⟩
  | _ => raw

end Parser

end Formula
