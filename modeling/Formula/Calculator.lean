import Formula.Answer
import Formula.Expr.Eval
import Formula.Function.Builtin
import Formula.Parse
import Formula.Settings
import Formula.Text.Blank

/-!
# The calculator

A `Calculator` is a scale, a dialect, the functions that expressions can call, the arithmetic that
they are computed with and the host that all of this runs on.  Its operations do not change it; the
two that set something return the calculator as it is afterwards.

* `create` — a calculator without functions, `standard` — one with the built-in functions.  Both
  check the scale (`scaleOf`).
* `parse` — the grouped expression of a text.  A blank text has none.
* `evaluate` — the answer to a text.  Whatever is wrong with the text or happens in its evaluation
  becomes an error token of the answer, and so does a host that has no room to show the expression.
  What leaves a text without an answer is an `Escape`.
* `calculate` — the output of the answer.
* `shown` — the text of an expression, if the host has room for it.
* `validate` and `render` — a text checked, or shown as an expression, without evaluating it.
-/

set_option autoImplicit false

namespace Formula

open Log

/-- A calculator. -/
structure Calculator where
  scale : Nat
  dialect : Dialect
  functions : Registry
  arithmetic : Arithmetic
  host : Host

namespace Calculator

/-! ## The scale -/

/-- A value that is no scale. -/
structure InvalidScale where
  given : Value

/-- The wording of the error for a value that is no scale. -/
def InvalidScale.message (e : InvalidScale) : String :=
  s!"Scale must be a non-negative integer, got {e.given.shown}"

/-- The scale that a value gives, a whole number that is not negative. -/
def scaleOf : Value → Except InvalidScale Nat
  | .integer n => if 0 ≤ n then .ok n.toNat else .error ⟨.integer n⟩
  | v => .error ⟨v⟩

theorem scaleOf_eq_ok_iff {v : Value} {n : Nat} : scaleOf v = .ok n ↔ v = .integer n := by
  constructor
  · intro h
    unfold scaleOf at h
    split at h
    · split at h
      · simp only [Except.ok.injEq] at h
        subst h
        congr
        omega
      · simp at h
    · simp at h
  · rintro rfl
    simp [scaleOf]

/-- The calculator at another scale. -/
def withScale (c : Calculator) (scale : Value) : Except InvalidScale Calculator := do
  return { c with scale := ← scaleOf scale }

/-! ## New calculators -/

/-- A calculator without functions. -/
def create (settings : Settings) (host : Host) (scale : Value) (strict : Bool) (maxDepth : Int) :
    Except InvalidScale Calculator := do
  return {
    scale := ← scaleOf scale
    dialect := {
      strict := strict
      maxDepth := maxDepth
      maxLength := settings.maxInputLength
      maxLiteralExponent := settings.maxLiteralExponent }
    functions := .empty
    arithmetic := settings.arithmetic host.elementary
    host := host }

/-- The scale of a calculator that is not given one. -/
def scaleOrDefault (settings : Settings) : Value → Value
  | .null => .integer settings.defaultScale
  | v => v

/-- The calculator with the built-in functions and no others. -/
def withBuiltins (c : Calculator) : Calculator := { c with functions := .builtins c.arithmetic }

/-- A calculator with the built-in functions, at the default scale if it is not given one. -/
def standard (settings : Settings) (host : Host) (scale : Value) (strict : Bool) :
    Except InvalidScale Calculator := do
  return (← create settings host (scaleOrDefault settings scale) strict
    settings.maxNestingDepth).withBuiltins

/-! ## Functions -/

/-- The calculator with a function added, and what there is to report. -/
def register (c : Calculator) (name arity : Value) (procedure : Option Procedure) :
    Except Registry.Refusal (Calculator × List Record) := do
  let (functions, records) ← c.functions.register name arity procedure
  return ({ c with functions := functions }, records)

/-! ## Expressions -/

/-- What a reader of expressions has to know. -/
def context (c : Calculator) : Reader.Context := ⟨c.dialect, c.functions, c.host⟩

/-- Is there nothing in the text but blanks? -/
def isBlank (text : String) : Bool := (Text.strip text.toList).isEmpty

/-- The grouped expression of a text; nothing if the text is blank or has no tokens. -/
def parse (c : Calculator) (text : Option String) :
    Logged (Except Unreadable (Option Expr)) :=
  match text with
  | none => .quiet (.ok none)
  | some s => if isBlank s then .quiet (.ok none) else Parser.parse c.context s

/-- The expression of a text as it is written; nothing if the text is blank or has no tokens. -/
def parseRaw (c : Calculator) (text : Option String) :
    Logged (Except Unreadable (Option Expr)) :=
  match text with
  | none => .quiet (.ok none)
  | some s => if isBlank s then .quiet (.ok none) else Parser.parseRaw c.context s

/-- The text of an expression. -/
def shown (c : Calculator) (e : Expr) : Except Exhaustion String :=
  match c.host.renderingFault? e with
  | some exhaustion => .error exhaustion
  | none => .ok e.text

/-- The text of the expression of a text, grouped or as it is written. -/
def render (c : Calculator) (text : Option String) (grouped : Bool) :
    Logged (Except Unreadable (Option String)) :=
  (if grouped then c.parse text else c.parseRaw text).map fun read ↦ do
    match ← read with
    | some e => return some (← (c.shown e).mapError .exhausted)
    | none => return none

/-- Why a text is not an expression, if it is not. -/
def validate (c : Calculator) (text : Option String) :
    Logged (Except Unreadable (Option ParseError)) :=
  (c.parse text).map fun
    | .error (.rejected e) => .ok (some e)
    | .error u => .error u
    | .ok _ => .ok none

/-! ## Answers -/

/-- The error token of a text that is not an expression. -/
def syntaxToken : String := "#SYNTAXERROR"

/-- The error token of a failure that has none of its own, around a message. -/
def errorToken (message : String) : String := s!"#ERROR({message})"

/-- Why a text is left without an answer. -/
inductive Escape
  /-- It calls a function whose arity cannot be counted to. -/
  | uncounted (function : String)
  /-- The host has no room for it. -/
  | exhausted (exhaustion : Exhaustion)
  /-- Its evaluation ends in a failure that cannot be shown; the attempt ends in an error of this
  class. -/
  | unshowable (kind : String)
deriving DecidableEq

/-- The wording of an escape. -/
def Escape.message : Escape → String
  | uncounted function => s!"the arity of {function} is not a whole number"
  | exhausted exhaustion => exhaustion.message
  | unshowable kind => s!"an error of the class {kind} while another one was shown"

/-- The error token of a failure. -/
def tokenOf (f : Failure) : Except Escape String := do
  let message ← f.message.mapError .unshowable
  return if f.kind = .evaluation ∧ isTokenMessage message then message else errorToken message

/-- A record of the calculator. -/
def note (message : String) : Record := .debug "calculator" message

/-- A host without room to show an expression, as a failure of the expression. -/
def failureOf (exhaustion : Exhaustion) : Failure := .abrupt exhaustion.kind exhaustion.message

/-- The value of an expression, which is only evaluated if it can be shown. -/
def valueOf (c : Calculator) (e : Expr) : Except Failure Decimal := do
  let _ ← (c.shown e).mapError failureOf
  e.eval c.arithmetic c.scale

/-- The answer about an expression, and what there is to report of it. -/
def answer (c : Calculator) (text : String) (e : Expr) : Logged (Except Escape Answer) :=
  let given := Text.quotedString text
  let tree := (c.shown e).toOption
  match c.valueOf e with
  | .ok d =>
    let result := String.ofList d.plain
    ⟨[note s!"evaluate term {given} yields {Text.quotedString result}"],
      .ok { ok := true, result := some result, tree := tree }⟩
  | .error f =>
    let surprise : List Record :=
      if f.kind = .unexpected then
        [.warning "calculator" s!"evaluating {given} failed unexpectedly"]
      else []
    match tokenOf f with
    | .error escape => ⟨surprise, .error escape⟩
    | .ok token =>
      ⟨surprise ++ [note s!"evaluate term {given} fails with {Text.quotedString token}"],
        .ok { ok := false, error := some token, tree := tree }⟩

/-- The answer about a text that is not an expression, and what there is to report of it. -/
def rejection (text : String) (e : ParseError) : Logged Answer :=
  ⟨[note s!"evaluate term {Text.quotedString text} fails with {syntaxToken} ({e.code})"],
    { ok := false, error := some syntaxToken }⟩

/-- The answer to a text. -/
def evaluate (c : Calculator) (text : Option String) : Logged (Except Escape Answer) :=
  match text with
  | none => .quiet (.ok .blank)
  | some s =>
    let parsed := c.parse (some s)
    match parsed.value with
    | .ok none => ⟨parsed.records, .ok .blank⟩
    | .ok (some e) =>
      let answered := c.answer s e
      ⟨parsed.records ++ answered.records, answered.value⟩
    | .error (.rejected e) =>
      let answered := rejection s e
      ⟨parsed.records ++ answered.records, .ok answered.value⟩
    | .error (.uncounted f) => ⟨parsed.records, .error (.uncounted f)⟩
    | .error (.exhausted x) => ⟨parsed.records, .error (.exhausted x)⟩

/-- The output of the answer to a text. -/
def calculate (c : Calculator) (text : Option String) : Logged (Except Escape String) :=
  (c.evaluate text).map (Except.map Answer.output)

end Calculator

end Formula
