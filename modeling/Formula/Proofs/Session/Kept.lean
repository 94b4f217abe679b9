import Formula.Proofs.Answer
import Formula.Proofs.Binding
import Formula.Proofs.Session

/-!
# Expressions that a session keeps

An expression that was put in a slot stays what it is until the slot is filled again: other requests
do not touch the slot, and what can be asked about an expression depends on nothing else that they
could change.  The functions that it calls were bound when it was read (`Formula.Proofs.Binding`),
so registering others under their names has no influence on it, even if their arities are others.

Reading the same text again is another matter.  The new expression is bound to the functions that
are there at that moment, which are the latest of all that were ever registered.

* `lookup_slots_run` — requests do not touch a slot that they do not name.
* `Keeps` — what is replied about the expression in a slot.
* `keeps_run` — the main result, for any requests after the one that reads the text.
-/

set_option autoImplicit false

namespace Formula

namespace Session

/-! ## Slots -/

/-- The slot that a request fills, if it succeeds. -/
def Request.slot? : Request → Option String
  | .parse _ slot => slot
  | _ => none

variable {s : Session}

/-- What is in a slot stays there while no other request fills it. -/
theorem lookup_slots_next {request : Request} {slot : String} (h : request.slot? ≠ some slot) :
    (s.next request).slots.lookup slot = s.slots.lookup slot := by
  obtain hnext | ⟨text, name, e, rfl, hnext⟩ := next_cases (s := s) request
  · rw [hnext]
  · have hne : slot ≠ name := fun heq ↦ h (heq ▸ rfl)
    rw [hnext, List.lookup_cons, beq_false_of_ne hne]

theorem lookup_slots_run {requests : List Request} {slot : String}
    (h : ∀ request ∈ requests, request.slot? ≠ some slot) :
    (s.run requests).slots.lookup slot = s.slots.lookup slot := by
  induction requests generalizing s with
  | nil => rfl
  | cons request requests ih =>
    obtain ⟨hrequest, hrequests⟩ := List.forall_mem_cons.1 h
    exact (ih hrequests).trans (lookup_slots_next hrequest)

/-- The arithmetic, the dialect and the host of a session are what they were at its beginning. -/
theorem unchanged_run (requests : List Request) :
    (s.run requests).calculator.arithmetic = s.calculator.arithmetic ∧
      (s.run requests).calculator.dialect = s.calculator.dialect ∧
      (s.run requests).calculator.host = s.calculator.host := by
  induction requests generalizing s with
  | nil => exact ⟨rfl, rfl, rfl⟩
  | cons request requests ih =>
    obtain ⟨harithmetic, hdialect, hhost⟩ := ih (s := s.next request)
    rw [calculator_next] at harithmetic hdialect hhost
    exact ⟨harithmetic, hdialect, hhost⟩

/-! ## Replies about a kept expression -/

/-- The reply to a request. -/
def reply (s : Session) (request : Request) : Except Error Reply :=
  (s.step request).value.map Prod.fst

theorem reply_of_replying {α : Type} {request : Request} {f : α → Reply}
    {l : Log.Logged (Except Error α)} (h : s.step request = s.replying f l) :
    s.reply request = l.value.map f := by
  have hvalue : (s.step request).value = l.value.map fun a ↦ (f a, s) := by rw [h]; rfl
  rw [reply, hvalue]
  cases l.value <;> rfl

/-- What is replied about the expression in a slot is what the calculator `c` makes of it: its text,
or the error of a host without room for that, and its value at every scale. -/
structure Keeps (s : Session) (slot : String) (c : Calculator) (e : Expr) : Prop where
  renderSlot_eq : s.reply (.renderSlot slot) =
    ((c.shown e).mapError (Error.escaped ∘ .exhausted)).map Reply.text
  evalSlot_eq : ∀ scale : Int, s.reply (.evalSlot slot (some scale)) =
    ((e.eval c.arithmetic scale).mapError Error.failure).map Reply.decimal

theorem keeps_of_lookup {slot : String} {c : Calculator} {e : Expr}
    (h : s.slots.lookup slot = some (some e))
    (harithmetic : s.calculator.arithmetic = c.arithmetic)
    (hhost : s.calculator.host = c.host) : s.Keeps slot c e := by
  have hslot : s.slot slot = .ok (some e) := by rw [Session.slot, h]
  have hkept : s.kept slot = .ok e := by rw [kept, hslot]; rfl
  constructor
  · rw [reply_of_replying rfl, hslot, Calculator.shown, ← hhost]
    rfl
  · intro scale
    rw [reply_of_replying rfl, hkept, ← harithmetic]
    rfl

end Session

/-! ## Reading a text, once and again -/

/-- The calculator with the functions that a history of requests leaves. -/
def Calculator.after (c : Calculator) (requests : List Session.Request) : Calculator :=
  { c with functions :=
      ⟨Registry.latest
        (c.functions.declarations ++ requests.filterMap Session.Request.declaration?)⟩ }

namespace Session

variable {s : Session}

/-- A session reads a text with the functions that were registered until then, and neither the scale
nor anything else that was done before has a part in it. -/
theorem parse_run (hfunctions : s.calculator.functions.WellFormed)
    (hdistinct : s.calculator.functions.Distinct) (requests : List Request)
    (text : Option String) :
    (s.run requests).calculator.parse text = (s.calculator.after requests).parse text ∧
      (s.calculator.after requests).functions.WellFormed := by
  have hfollows := follows_run hfunctions hdistinct requests
  have heq : (s.run requests).calculator.functions = (s.calculator.after requests).functions :=
    congrArg Registry.mk hfollows.functions.declarations_eq
  refine ⟨Calculator.parse_congr ?_ text, heq ▸ hfollows.wellFormed⟩
  obtain ⟨-, hdialect, hhost⟩ := unchanged_run (s := s) requests
  rw [Calculator.context, Calculator.context, heq, hdialect, hhost]
  rfl

/-- **An expression keeps the functions that it was read with.**  Let the functions of a session
have different keys, names that can be spelled and arities from one to three, as in all sessions
with a new calculator.  Let it read an expression into a slot, and let any requests follow that do
not fill this slot: registrations, also of the functions that the expression calls and with other
spellings, arities and procedures, changes of scale, readings and evaluations.  Then the text of the
expression and its value at every scale are still what they were, and each of its calls, at whatever
depth, is bound to what the registry had under the name in the text when the text was read.  Reading
the text again is reading it with the functions that the registrations have left until then, and the
calls of the new expression are bound to these. -/
theorem keeps_run (hfunctions : s.calculator.functions.WellFormed)
    (hdistinct : s.calculator.functions.Distinct) {text slot : String} {e : Expr}
    (hparse : (s.calculator.parse (some text)).value = .ok (some e)) {later : List Request}
    (hlater : ∀ request ∈ later, request.slot? ≠ some slot) :
    let s' := s.run (.parse (some text) (some slot) :: later)
    s'.Keeps slot s.calculator e ∧
      e.calls.map some = s.calculator.bindings text ∧
      s'.calculator.parse (some text) = (s.calculator.after later).parse (some text) ∧
      ∀ e', (s'.calculator.parse (some text)).value = .ok (some e') →
        e'.calls.map some = (s.calculator.after later).bindings text := by
  intro s'
  have hnext : s.next (.parse (some text) (some slot)) =
      { s with slots := (slot, some e) :: s.slots } := by
    rw [next, step, Log.Logged.map]
    dsimp only
    rw [hparse]
    rfl
  have hrun : s' = Session.run { s with slots := (slot, some e) :: s.slots } later := by
    rw [← hnext]
    rfl
  have hlookup : s'.slots.lookup slot = some (some e) := by
    rw [hrun, lookup_slots_run hlater]
    exact List.lookup_cons_self
  have hunchanged := unchanged_run (s := { s with slots := (slot, some e) :: s.slots }) later
  rw [← hrun] at hunchanged
  obtain ⟨hagain, hwellFormed⟩ := parse_run
    (s := { s with slots := (slot, some e) :: s.slots }) hfunctions hdistinct later (some text)
  rw [← hrun] at hagain
  refine ⟨keeps_of_lookup hlookup hunchanged.1 hunchanged.2.2,
    Calculator.calls_of_parse hfunctions hparse, hagain, fun e' he' ↦ ?_⟩
  rw [hagain] at he'
  exact Calculator.calls_of_parse hwellFormed he'

/-! ## A function that is replaced under an expression -/

open Calculator Grammar

/-- `1 + boom(boom(7))`, a call in the argument of another one. -/
def nestedCalls : Expr :=
  .chain false (.const (.finite false 1 0))
    [(.plus, (failing missingKey).call [(failing missingKey).call [.const (.finite false 7 0)]])]

theorem parse_nestedCalls :
    ((failingAlone missingKey).parse (some "1 + boom(boom(7))")).value =
      .ok (some nestedCalls) := by
  have hlexemes : lexemes false "1 + boom(boom(7))" =
      [Lexeme.number ['1']] ++ Lexeme.symbol '+' ::
        ([] ++ Lexeme.name ['b', 'o', 'o', 'm'] :: Lexeme.symbol '(' ::
          ([] ++ Lexeme.name ['b', 'o', 'o', 'm'] :: Lexeme.symbol '(' :: [Lexeme.number ['7']] ++
            [Lexeme.symbol ')']) ++
          [Lexeme.symbol ')']) := by
    decide +kernel
  have hspells : Spells (failingAlone missingKey).context 2
      (lexemes false "1 + boom(boom(7))") nestedCalls := by
    rw [hlexemes]
    have hcall := operand_failing missingKey (.digit (by decide) 0 (show 7 < 10 by decide))
    have hcalls := operand_failing missingKey hcall
    exact ⟨_, _, .link .plus (.single (.digit (by decide) 2 (show 1 < 10 by decide))) hcalls, rfl⟩
  have hfits := fits_failing missingKey "1 + boom(boom(7))"
  exact hfits.parse_of_parseRaw (hfits.parseRaw_of_spells (by decide) (by decide) hspells)

/-- A function of two arguments takes the name of the one that was called, at another scale. -/
def replacingRequests : List Request :=
  [.register (.text "BOOM") (.integer 2) (some fun _ _ ↦ .ok (.integer 1)),
    .setScale (.integer 3),
    .calculate (some "boom(1, 2)"),
    .parse (some "boom(3, 4)") (some "other"),
    .evalSlot "kept" none]

/-- The calls that were kept fail as they did, while their name stands for another function. -/
theorem keeps_run_replacingRequests :
    (failingAlone missingKey).functions.WellFormed ∧ (failingAlone missingKey).functions.Distinct ∧
      ((failingAlone missingKey).parse (some "1 + boom(boom(7))")).value = .ok (some nestedCalls) ∧
      (∀ request ∈ replacingRequests, request.slot? ≠ some "kept") ∧
      ((ofCalculator (failingAlone missingKey)).run
          (.parse (some "1 + boom(boom(7))") (some "kept") :: replacingRequests)).reply
            (.evalSlot "kept" (some 10)) =
        .error (.failure (.abrupt "KeyError" "'missing'")) ∧
      nestedCalls.calls = [(failing missingKey).binding, (failing missingKey).binding] ∧
      (((failingAlone missingKey).after replacingRequests).bindings "1 + boom(boom(7))").map
        (Option.map fun b ↦ (b.name, b.count)) = [some ("BOOM", 2), some ("BOOM", 2)] := by
  have hfunctions := wellFormed_failing missingKey
  have hdistinct : (failingAlone missingKey).functions.Distinct := List.nodup_singleton _
  have hslots : ∀ request ∈ replacingRequests, request.slot? ≠ some "kept" := by
    simp [replacingRequests, Request.slot?]
  obtain ⟨hkeeps, -⟩ := keeps_run (s := ofCalculator (failingAlone missingKey)) hfunctions hdistinct
    parse_nestedCalls hslots
  refine ⟨hfunctions, hdistinct, parse_nestedCalls, hslots, ?_, rfl, by decide +kernel⟩
  exact hkeeps.evalSlot_eq 10

end Session

end Formula
