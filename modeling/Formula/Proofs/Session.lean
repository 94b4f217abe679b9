import Formula.Proofs.Calculator
import Formula.Proofs.Registry.History
import Formula.Session

/-!
# What a session keeps of its requests

Most requests only ask.  Those that change the calculator of a session set its scale or register a
function, and whether one of them is accepted is decided by the request alone (`Request.scale?`,
`Request.declaration?`): not by the calculator, and not by anything that was calculated in between.
So the calculator after any number of requests is known from the calculator before and from the
accepted requests.

* `next_cases`, `calculator_next` — what one request does to a session, and to its calculator.
* `follows_run` — what any number of requests leave of it (`Calculator.Follows`).
* `account_run` — the main result: the scale, the functions and the look-ups after a run, and that a
  request which is refused or only asks changes none of them.
-/

set_option autoImplicit false

namespace Formula

open Log

/-! ## Requests -/

namespace Session.Request

/-- The scale that a request sets: a whole number that is not negative. -/
def scale? : Request → Option Nat
  | .setScale (.integer n) | .withScale (.integer n) => n.toNat?
  | _ => none

/-- The declaration that a request registers. -/
def declaration? : Request → Option Declaration
  | .register name arity procedure => (Registry.declare name arity procedure).toOption
  | _ => none

/-- Is it a request to change the calculator? -/
def isChange : Request → Bool
  | .setScale _ | .withScale _ | .register .. => true
  | _ => false

/-- The calculator that a request makes of one. -/
def change (request : Request) (c : Calculator) : Calculator :=
  { c with
    scale := request.scale?.getD c.scale
    functions := request.declaration?.elim c.functions c.functions.insert }

end Session.Request

namespace Session

theorem scale?_setScale (scale : Value) :
    (Request.setScale scale).scale? = (Calculator.scaleOf scale).toOption := by
  cases scale with
  | integer n => cases n <;> rfl
  | _ => rfl

theorem scale?_withScale (scale : Value) :
    (Request.withScale scale).scale? = (Calculator.scaleOf scale).toOption := by
  rw [← scale?_setScale]
  cases scale <;> rfl

/-- A request with a declaration is a registration that is accepted. -/
theorem Request.exists_register {request : Request} {d : Declaration}
    (h : request.declaration? = some d) :
    ∃ name arity procedure, request = .register name arity procedure ∧
      Registry.declare name arity procedure = .ok d := by
  cases request with
  | register name arity procedure =>
    refine ⟨name, arity, procedure, rfl, ?_⟩
    rw [Request.declaration?] at h
    cases hd : Registry.declare name arity procedure with
    | error refusal => rw [hd] at h; cases h
    | ok d' =>
      rw [hd] at h
      exact congrArg Except.ok (Option.some.inj h)
  | _ => cases h

theorem Request.declaration?_spec {request : Request} {d : Declaration}
    (h : request.declaration? = some d) :
    isName d.name ∧ 1 ≤ d.arity.count ∧ d.arity.count ≤ 3 := by
  obtain ⟨name, arity, procedure, -, hd⟩ := Request.exists_register h
  exact Registry.declare_spec hd

/-! ## One request -/

variable {s : Session}

/-- What only replies leaves the session as it is. -/
theorem next_of_replying {α : Type} {request : Request} {reply : α → Reply}
    {l : Logged (Except Error α)} (h : s.step request = s.replying reply l) :
    s.next request = s := by
  have hvalue : (s.step request).value = l.value.map fun a ↦ (reply a, s) := by rw [h]; rfl
  rw [next, hvalue]
  cases l.value <;> rfl

/-- A request that fails leaves the session as it is. -/
theorem next_of_error {request : Request} {e : Error} (h : (s.step request).value = .error e) :
    s.next request = s := by
  rw [next, h]

/-- A request with an outcome that depends on another one. -/
theorem next_of_map {α ε : Type} {request : Request} {x : Except ε α} {f : α → Reply × Session}
    {g : ε → Error} (h : (s.step request).value = (x.map f).mapError g) :
    (s.step request).value.isOk = x.toOption.isSome ∧
      s.next request = x.toOption.elim s fun a ↦ (f a).2 := by
  rw [next, h]
  cases x <;> exact ⟨rfl, rfl⟩

/-- A change of scale, whichever request asks for it. -/
theorem step_of_withScale (request : Request) (scale : Value) (reply : Nat → Reply)
    (h : s.step request = .quiet do
      let c ← (s.calculator.withScale scale).mapError Error.scale
      return (reply c.scale, { s with calculator := c })) :
    (s.step request).value =
      ((Calculator.scaleOf scale).map fun n ↦
        (reply n, { s with calculator := { s.calculator with scale := n } })).mapError
          Error.scale := by
  rw [h, Calculator.withScale]
  cases Calculator.scaleOf scale <;> rfl

theorem step_register (name arity : Value) (procedure : Option Procedure) :
    (s.step (.register name arity procedure)).value =
      ((Registry.declare name arity procedure).map fun d ↦
        (Reply.done, { s with calculator :=
          { s.calculator with functions := s.calculator.functions.insert d } })).mapError
            Error.refused := by
  rw [step, Calculator.register, Registry.register]
  cases Registry.declare name arity procedure <;> rfl

/-- **What one request does**: it changes the calculator at most, or fills a slot. -/
theorem next_cases (request : Request) :
    s.next request = { s with calculator := request.change s.calculator } ∨
      ∃ text name e, request = .parse text (some name) ∧
        s.next request = { s with slots := (name, e) :: s.slots } := by
  cases request with
  | setScale scale =>
    have hvalue := step_of_withScale (s := s) (.setScale scale) scale .scale rfl
    rw [(next_of_map hvalue).2, Request.change, scale?_setScale]
    cases Calculator.scaleOf scale <;> exact .inl rfl
  | withScale scale =>
    have hvalue := step_of_withScale (s := s) (.withScale scale) scale .withScale rfl
    rw [(next_of_map hvalue).2, Request.change, scale?_withScale]
    cases Calculator.scaleOf scale <;> exact .inl rfl
  | register name arity procedure =>
    rw [(next_of_map (step_register name arity procedure)).2, Request.change, Request.declaration?]
    cases Registry.declare name arity procedure <;> exact .inl rfl
  | parse text slot =>
    rw [next, step, Logged.map]
    dsimp only
    cases (s.calculator.parse text).value with
    | error u => exact .inl rfl
    | ok e =>
      cases slot with
      | none => exact .inl rfl
      | some name => exact .inr ⟨text, name, e, rfl, rfl⟩
  | state | contains | list => exact .inl rfl
  | calculate | evaluate | evalSlot | renderSlot | lookup | bind =>
    exact .inl (next_of_replying rfl)

/-- **What one request does to the calculator.** -/
theorem calculator_next (request : Request) :
    (s.next request).calculator = request.change s.calculator := by
  obtain hnext | ⟨text, name, e, rfl, hnext⟩ := next_cases (s := s) request
  · rw [hnext]
  · rw [hnext]
    rfl

/-- A request to change the calculator succeeds exactly if it gives a scale or a declaration. -/
theorem isOk_step_iff {request : Request} (h : request.isChange) :
    (s.step request).value.isOk ↔ request.scale?.isSome ∨ request.declaration?.isSome := by
  cases request with
  | setScale scale =>
    have hvalue := step_of_withScale (s := s) (.setScale scale) scale .scale rfl
    rw [(next_of_map hvalue).1, ← scale?_setScale]
    simp [Request.declaration?]
  | withScale scale =>
    have hvalue := step_of_withScale (s := s) (.withScale scale) scale .withScale rfl
    rw [(next_of_map hvalue).1, ← scale?_withScale]
    simp [Request.declaration?]
  | register name arity procedure =>
    rw [(next_of_map (step_register name arity procedure)).1]
    simp [Request.declaration?, Request.scale?]
  | _ => cases h

/-- A request that fails, or that only asks, leaves the calculator as it is. -/
theorem calculator_next_of_not {request : Request}
    (h : (s.step request).value.isOk = false ∨ request.isChange = false) :
    (s.next request).calculator = s.calculator := by
  rcases h with hfails | hasks
  · cases hstep : (s.step request).value with
    | error e => rw [next_of_error hstep]
    | ok r => rw [hstep] at hfails; cases hfails
  · rw [calculator_next]
    cases request with
    | setScale | withScale | register => cases hasks
    | _ => rfl

end Session

/-! ## Runs -/

/-- A calculator that requests have made of an earlier one. -/
structure Calculator.Follows (c : Calculator) (requests : List Session.Request) (c' : Calculator) :
    Prop where
  scale_eq : c'.scale = (requests.filterMap Session.Request.scale?).getLast?.getD c.scale
  functions : c'.functions.Follows
    (c.functions.declarations ++ requests.filterMap Session.Request.declaration?)
  wellFormed : c'.functions.WellFormed

/-- **One more request.** -/
theorem Calculator.Follows.change {c c' : Calculator} {requests : List Session.Request}
    (h : c.Follows requests c') (request : Session.Request) :
    c.Follows (requests ++ [request]) (request.change c') where
  scale_eq := by
    rw [Session.Request.change, List.filterMap_append, h.scale_eq]
    cases hscale : request.scale? with
    | none => simp [hscale]
    | some n => simp [hscale]
  functions := by
    rw [Session.Request.change, List.filterMap_append]
    cases hd : request.declaration? with
    | none => simpa [hd] using h.functions
    | some d => simpa [hd] using h.functions.insert d
  wellFormed := by
    rw [Session.Request.change]
    cases hd : request.declaration? with
    | none => exact h.wellFormed
    | some d => exact h.wellFormed.insert (Session.Request.declaration?_spec hd)

namespace Session

theorem run_concat (s : Session) (requests : List Request) (request : Request) :
    s.run (requests ++ [request]) = (s.run requests).next request := by
  rw [run, List.foldl_append]
  rfl

/-- **What any number of requests leave of a calculator.** -/
theorem follows_run {s : Session} (hfunctions : s.calculator.functions.WellFormed)
    (hdistinct : s.calculator.functions.Distinct) (requests : List Request) :
    s.calculator.Follows requests (s.run requests).calculator := by
  induction requests using List.reverseRecOn with
  | nil =>
    have hempty := hdistinct.follows
    rw [← List.append_nil s.calculator.functions.declarations] at hempty
    exact ⟨rfl, hempty, hfunctions⟩
  | append_singleton requests request ih =>
    rw [run_concat, calculator_next]
    exact ih.change request

/-! ## New calculators -/

section

variable {settings : Settings} {host : Host} {scale : Value} {strict : Bool}
  {c : Calculator}

theorem functions_of_standard (h : Calculator.standard settings host scale strict = .ok c) :
    c.functions.WellFormed ∧ c.functions.Distinct := by
  obtain ⟨-, hbuiltins, -⟩ := Calculator.standard_spec h
  rw [hbuiltins]
  exact ⟨Registry.wellFormed_builtins _, Registry.distinct_builtins _⟩

end

/-! ## The account of a session -/

/-- What can be told of a calculator from the calculator that it was and the requests since then. -/
structure Account (c : Calculator) (requests : List Request) (c' : Calculator) : Prop where
  /-- The scale is the last one that was accepted. -/
  scale_eq : c'.scale = (requests.filterMap Request.scale?).getLast?.getD c.scale
  /-- Every key that was ever registered is there once, in the order in which they came first. -/
  keys_eq : c'.functions.declarations.map Declaration.key = Registry.firstKeys
    (c.functions.declarations ++ requests.filterMap Request.declaration?)
  distinct : c'.functions.Distinct
  /-- Every key has the declaration that was accepted last. -/
  declarations_eq : c'.functions.declarations = Registry.latest
    (c.functions.declarations ++ requests.filterMap Request.declaration?)
  lookup?_eq_some_iff : ∀ (name : String) (d : Declaration),
    c'.functions.lookup? name = some d ↔
      d ∈ c'.functions.declarations ∧ d.key = Text.foldCase name
  contains_iff : ∀ name : String, c'.functions.contains (.text name) ↔
    Text.foldCase name ∈ c'.functions.declarations.map Declaration.key
  wellFormed : c'.functions.WellFormed

/-- **The account of a session.**  Let the calculator of a session have functions with different
keys, whose names can be spelled and whose arities are from one to three, as new calculators have
(`functions_of_standard`).  After any requests, accepted or not, the scale
and the functions are those that the accepted requests left, look-ups agree with the list of
functions, and names and arities are still of that form.  A further request to change the
calculator succeeds exactly if it gives a scale or a declaration; one that fails, and one that only
asks, changes nothing. -/
theorem account_run {s : Session} (hfunctions : s.calculator.functions.WellFormed)
    (hdistinct : s.calculator.functions.Distinct) (requests : List Request) :
    Account s.calculator requests (s.run requests).calculator ∧
      ∀ request : Request,
        (request.isChange → (((s.run requests).step request).value.isOk ↔
          request.scale?.isSome ∨ request.declaration?.isSome)) ∧
        (((s.run requests).step request).value.isOk = false ∨ request.isChange = false →
          ((s.run requests).next request).calculator = (s.run requests).calculator) := by
  have hfollows := follows_run hfunctions hdistinct requests
  refine ⟨?_, fun request ↦ ⟨isOk_step_iff, calculator_next_of_not⟩⟩
  exact {
    scale_eq := hfollows.scale_eq
    keys_eq := hfollows.functions.keys_eq
    distinct := hfollows.functions.distinct
    declarations_eq := hfollows.functions.declarations_eq
    lookup?_eq_some_iff := fun _ _ ↦ Registry.lookup?_eq_some_iff hfollows.functions.distinct
    contains_iff := fun _ ↦ Registry.contains_iff
    wellFormed := hfollows.wellFormed }

/-! ## A session with refusals -/

/-- Scales and functions that are accepted, replaced and refused, and a calculation that fails. -/
def mixedRequests : List Request :=
  [.setScale (.integer 3),
    .register (.text "Twice") (.integer 1) (some fun _ _ ↦ .ok (.integer 1)),
    .calculate (some "twice(2) / 0"),
    .setScale (.integer (-1)),
    .register (.text "2x") (.integer 1) (some fun _ _ ↦ .ok (.integer 1)),
    .register (.text "SIN") (.bool true) (some fun _ _ ↦ .ok (.integer 1)),
    .withScale (.integer 5),
    .withScale (.text "7"),
    .register (.text "TWICE") (.integer 2) (some fun _ _ ↦ .ok (.integer 2)),
    .register (.text "twice") (.integer 4) (some fun _ _ ↦ .ok (.integer 2)),
    .register (.text "if") (.integer 3) none]

/-- Replaced functions keep their places, with the new spelling and arity. -/
theorem account_run_mixedRequests :
    (Calculator.standardOn .native).functions.WellFormed ∧
      (Calculator.standardOn .native).functions.Distinct ∧
      ((ofCalculator (.standardOn .native)).run mixedRequests).calculator.scale = 5 ∧
      ((ofCalculator (.standardOn .native)).run mixedRequests).calculator.functions.declarations.map
          (fun d ↦ (d.name, d.arity)) =
        [("SIN", ⟨1, .truth⟩), ("if", ⟨3, .whole⟩), ("round", ⟨2, .whole⟩),
          ("TWICE", ⟨2, .whole⟩)] := by
  obtain ⟨hfunctions, hdistinct⟩ := functions_of_standard (Calculator.standard_eq .native)
  have haccount : Account (Calculator.standardOn .native) mixedRequests _ :=
    (account_run (s := ofCalculator (.standardOn .native)) hfunctions hdistinct mixedRequests).1
  refine ⟨hfunctions, hdistinct, haccount.scale_eq.trans (by decide +kernel), ?_⟩
  rw [haccount.declarations_eq]
  rfl

end Session

end Formula
