import Formula.Calculator

/-!
# Sessions

A program that embeds the calculator keeps one for a while: it calculates, keeps expressions to
evaluate them again, changes the scale and registers functions.  A `Session` is the calculator as it
is at a moment and the expressions that were kept, each in a named slot.

`Session.step` performs one `Request`.  It answers with a `Reply` or with the error of the operation
(`Session.Error`), and a request that fails leaves the session as it was.

A kept expression holds the functions that it was read with.  Registering others under their names
later has no influence on it.
-/

set_option autoImplicit false

namespace Formula

open Log

/-- A calculator in use, and the expressions that were kept. -/
structure Session where
  calculator : Calculator
  /-- The slots that were filled, the latest first; a blank text fills a slot with nothing. -/
  slots : List (String × Option Expr)

namespace Session

/-- One operation on a session. -/
inductive Request
  | calculate (text : Option String)
  | evaluate (text : Option String)
  /-- Reads an expression, and keeps it if a slot is given. -/
  | parse (text : Option String) (slot : Option String)
  /-- Evaluates a kept expression, at the scale of the calculator if no other is given. -/
  | evalSlot (slot : String) (scale : Option Int)
  | renderSlot (slot : String)
  | setScale (scale : Value)
  | withScale (scale : Value)
  | state
  | register (name arity : Value) (procedure : Option Procedure)
  | contains (name : Value)
  | lookup (name : Value)
  | list
  /-- Calls a function with the expressions of some texts as they are written. -/
  | bind (name : Value) (texts : List String)

/-- The answer to a request. -/
inductive Reply
  | text (s : String)
  | answer (a : Answer)
  /-- The text of an expression, or the error of a host that has no room to show it. -/
  | rendering (s : Option (Except Exhaustion String))
  | decimal (d : Decimal)
  | scale (n : Nat)
  | withScale (n : Nat)
  | state (scale : Nat) (strict : Bool) (maxDepth : Int) (functions : Nat)
  | done
  | contains (found : Bool)
  | declaration (d : Option Declaration)
  | declarations (ds : List Declaration)
  | bound (e : Expr)

/-- Why a request fails. -/
inductive Error
  | parse (e : ParseError)
  | escaped (e : Calculator.Escape)
  | failure (f : Failure)
  | scale (e : Calculator.InvalidScale)
  | refused (e : Registry.Refusal)
  | mismatch (e : Declaration.CountMismatch)
  | emptySlot (slot : String)
  /-- The slot holds nothing, or there is no function of this name. -/
  | nothing

/-- A new session. -/
def ofCalculator (c : Calculator) : Session := ⟨c, []⟩

/-- The error of a reading without a result. -/
def Error.ofUnreadable : Unreadable → Error
  | .rejected e => parse e
  | .uncounted f => escaped (.uncounted f)
  | .exhausted x => escaped (.exhausted x)

/-- What is kept in a slot. -/
def slot (s : Session) (name : String) : Except Error (Option Expr) :=
  match s.slots.lookup name with
  | some e => .ok e
  | none => .error (.emptySlot name)

/-- The expression that is kept in a slot. -/
def kept (s : Session) (name : String) : Except Error Expr := do
  match ← s.slot name with
  | some e => return e
  | none => .error .nothing

/-- The declaration of a function. -/
def declaration (s : Session) (name : Value) : Except Error (Option Declaration) :=
  match name with
  | .text n => .ok (s.calculator.functions.lookup? n)
  | _ => .error .nothing

/-- The expressions of some texts as they are written, and what there is to report. -/
def arguments (s : Session) : List String → Logged (Except Error (List Expr))
  | [] => .quiet (.ok [])
  | text :: rest =>
    let raw := Parser.parseRaw s.calculator.context text
    match raw.value with
    | .error u => ⟨raw.records, .error (.ofUnreadable u)⟩
    | .ok none => ⟨raw.records, .error .nothing⟩
    | .ok (some e) =>
      let others := s.arguments rest
      ⟨raw.records ++ others.records, others.value.map (e :: ·)⟩

/-- The call of a function with the expressions of some texts. -/
def bind (s : Session) (name : Value) (texts : List String) : Logged (Except Error Expr) :=
  (s.arguments texts).map fun arguments ↦ do
    let es ← arguments
    match ← s.declaration name with
    | none => .error .nothing
    | some d => (d.bind? es).mapError Error.mismatch

/-- The outcome of a request that leaves the session as it is. -/
def replying {α : Type} (s : Session) (reply : α → Reply) (l : Logged (Except Error α)) :
    Logged (Except Error (Reply × Session)) :=
  l.map (Except.map fun a ↦ (reply a, s))

/-- Performs a request. -/
def step (s : Session) (request : Request) : Logged (Except Error (Reply × Session)) :=
  match request with
  | .calculate text =>
    s.replying .text ((s.calculator.calculate text).map (Except.mapError .escaped))
  | .evaluate text =>
    s.replying .answer ((s.calculator.evaluate text).map (Except.mapError .escaped))
  | .parse text slot =>
    (s.calculator.parse text).map fun parsed ↦ do
      let e ← parsed.mapError Error.ofUnreadable
      let slots := match slot with
        | some name => (name, e) :: s.slots
        | none => s.slots
      return (.rendering (e.map s.calculator.shown), { s with slots := slots })
  | .evalSlot name scale =>
    s.replying .decimal <| .quiet do
      let e ← s.kept name
      (e.eval s.calculator.arithmetic (scale.getD s.calculator.scale)).mapError Error.failure
  | .renderSlot name =>
    s.replying .text <| .quiet do
      match ← s.slot name with
      | some e => (s.calculator.shown e).mapError (.escaped ∘ .exhausted)
      | none => return Value.null.shown
  | .setScale scale =>
    .quiet do
      let c ← (s.calculator.withScale scale).mapError Error.scale
      return (.scale c.scale, { s with calculator := c })
  | .withScale scale =>
    .quiet do
      let c ← (s.calculator.withScale scale).mapError Error.scale
      return (.withScale c.scale, { s with calculator := c })
  | .state =>
    let c := s.calculator
    .quiet (.ok (.state c.scale c.dialect.strict c.dialect.maxDepth c.functions.size, s))
  | .register name arity procedure =>
    match s.calculator.register name arity procedure with
    | .error e => .quiet (.error (.refused e))
    | .ok (c, records) => ⟨records, .ok (.done, { s with calculator := c })⟩
  | .contains name => .quiet (.ok (.contains (s.calculator.functions.contains name), s))
  | .lookup name => s.replying .declaration (.quiet (s.declaration name))
  | .list => .quiet (.ok (.declarations s.calculator.functions.declarations, s))
  | .bind name texts => s.replying .bound (s.bind name texts)

/-- The session after a request: as it was, if the request fails. -/
def next (s : Session) (request : Request) : Session :=
  match (s.step request).value with
  | .ok (_, s') => s'
  | .error _ => s

/-- The session after a list of requests. -/
def run (s : Session) (requests : List Request) : Session := requests.foldl next s

end Session

end Formula
