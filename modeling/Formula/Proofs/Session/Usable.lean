import Formula.Function.Catalogue
import Formula.Proofs.Answer
import Formula.Proofs.Session

/-!
# Functions that cannot be used

A registration is checked, so that whatever is accepted can be called.  The checks leave two gaps,
and what a function does when it is called is the third one.

* A list or a dictionary in the place of an arity cannot be looked up among the arities.  It is
  refused all the same, but not by the error that refusals are announced with
  (`Registry.Refusal.isValueError`).
* One, two and three are arities also as floating-point numbers, and these cannot be counted to.
  The function is accepted, and a text whose reading comes to a call of it has neither an expression
  nor an error, neither an answer nor an output (`Calculator.Escapes`).
* A function may raise an error that cannot be shown.  A text whose evaluation ends with it has an
  expression, but neither an answer nor an output.

This file shows that there is no fourth one, as long as the host has room.  The registry of a
session only has functions that it began with or that were registered since (`declared_run`), so a
reading stumbles only over a function that was registered with a floating-point arity.

* `Registry.isSome_declare_iff`, `isOk_register_iff`, `settles_register_iff` — what is accepted, and
  how the rest is refused.
* `answers_iff` — the texts that are answered, and `escapes_of_stumbles`,
  `escapes_of_endsUnshowable`, what becomes of the others.
* `answers_run` — the main result, after any requests.
-/

set_option autoImplicit false

namespace Formula

/-! ## Registrations -/

/-- Is the value a name that an expression can spell? -/
def Value.isName : Value → Bool
  | .text s => Formula.isName s
  | _ => false

/-- Does the value consist of other values? -/
def Value.isCollection : Value → Bool
  | .list _ | .dict _ => true
  | _ => false

/-- Is it the value that is refused, and not its type? -/
def Registry.Refusal.isValueError : Registry.Refusal → Bool
  | .arityType _ => false
  | .name _ | .arity .. | .notCallable _ => true

/-- The arity of a function cannot be counted to exactly if it is a floating-point number. -/
theorem Arity.exists_float_of_ofValue? {v : Value} {a : Arity} (h : ofValue? v = some a)
    (hcounted : a.isCounted = false) : ∃ x, v = .float x := by
  cases v with
  | integer n =>
    rw [ofValue?] at h
    split at h
    · cases h
      cases hcounted
    · cases h
  | bool b =>
    cases b with
    | false => cases h
    | true =>
      cases h
      cases hcounted
  | float x => exact ⟨x, rfl⟩
  | null | text | list | dict | callable => cases h

/-- A function is declared exactly if its name can be spelled, its arity is one, two or three,
however it is given, and there is a procedure. -/
theorem Registry.isSome_declare_iff {name arity : Value} {procedure : Option Procedure} :
    (declare name arity procedure).toOption.isSome ↔
      name.isName ∧ (Arity.ofValue? arity).isSome ∧ procedure.isSome := by
  cases hd : declare name arity procedure with
  | ok d =>
    obtain ⟨rfl, hname, harity, rfl⟩ := declare_eq_ok_iff.1 hd
    exact iff_of_true rfl ⟨hname, by rw [harity]; rfl, rfl⟩
  | error refusal =>
    refine iff_of_false (by simp [Except.toOption]) ?_
    rintro ⟨hname, harity, hprocedure⟩
    obtain ⟨a, ha⟩ := Option.isSome_iff_exists.1 harity
    obtain ⟨p, rfl⟩ := Option.isSome_iff_exists.1 hprocedure
    cases name with
    | text n =>
      have haccepted : declare (.text n) arity (some p) = .ok ⟨n, a, p⟩ :=
        declare_eq_ok_iff.2 ⟨rfl, hname, ha, rfl⟩
      rw [hd] at haccepted
      cases haccepted
    | _ => cases hname

/-- The type of a value is refused exactly if an arity with a proper name is a collection. -/
theorem Registry.isValueError_of_declare {name arity : Value} {procedure : Option Procedure}
    {refusal : Refusal} (h : declare name arity procedure = .error refusal) :
    refusal.isValueError = !(name.isName && arity.isCollection) := by
  cases name with
  | text s =>
    unfold declare at h
    dsimp only at h
    cases hname : isName s with
    | false =>
      rw [if_pos (by simp [hname])] at h
      cases h
      simp [Value.isName, hname, Refusal.isValueError]
    | true =>
      rw [if_neg (by simp [hname])] at h
      split at h
      · cases h
        simp [Value.isName, hname, Value.isCollection, Refusal.isValueError]
      · cases h
        simp [Value.isName, hname, Value.isCollection, Refusal.isValueError]
      · rename_i hlist hdict
        have hcollection : arity.isCollection = false := by
          cases arity with
          | list vs => exact absurd rfl (hlist vs)
          | dict entries => exact absurd rfl (hdict entries)
          | _ => rfl
        rw [hcollection, Bool.and_false]
        split at h <;> cases h <;> rfl
  | _ =>
    cases h
    rfl

namespace Session

variable {s : Session}

/-- The request is accepted, or its value is refused and it changes nothing. -/
def Settles (s : Session) (request : Request) : Prop :=
  (s.step request).value.isOk ∨
    ∃ refusal, (s.step request).value = .error (.refused refusal) ∧ refusal.isValueError ∧
      s.next request = s

/-- A registration is accepted exactly if its name can be spelled, its arity is one, two or three,
however it is given, and there is a procedure. -/
theorem isOk_register_iff {name arity : Value} {procedure : Option Procedure} :
    (s.step (.register name arity procedure)).value.isOk ↔
      name.isName ∧ (Arity.ofValue? arity).isSome ∧ procedure.isSome := by
  rw [(next_of_map (step_register name arity procedure)).1, Registry.isSome_declare_iff]

/-- **A registration is accepted, or refused for its values, unless its arity is a collection.** -/
theorem settles_register_iff {name arity : Value} {procedure : Option Procedure} :
    s.Settles (.register name arity procedure) ↔ ¬ (name.isName ∧ arity.isCollection) := by
  have hvalue := step_register (s := s) name arity procedure
  rw [Settles]
  cases hd : Registry.declare name arity procedure with
  | ok d =>
    rw [hd] at hvalue
    refine iff_of_true (.inl (by rw [hvalue]; rfl)) ?_
    rintro ⟨-, hcollection⟩
    obtain ⟨-, -, harity, -⟩ := Registry.declare_eq_ok_iff.1 hd
    cases arity with
    | list | dict => cases harity
    | _ => cases hcollection
  | error refusal =>
    rw [hd] at hvalue
    have hvalue : (s.step (.register name arity procedure)).value = .error (.refused refusal) :=
      hvalue
    have hkind := Registry.isValueError_of_declare hd
    rw [← Bool.and_eq_true, Bool.not_eq_true, ← Bool.not_eq_true', ← hkind]
    constructor
    · rintro (hok | ⟨refusal', hrefusal, hvalueError, -⟩)
      · rw [hvalue] at hok
        cases hok
      · rw [hvalue] at hrefusal
        cases hrefusal
        exact hvalueError
    · exact fun h ↦ .inr ⟨refusal, hvalue, h, next_of_error hvalue⟩

/-! ## Functions of a session -/

/-- A function of a session is one that it began with, or was registered. -/
theorem declared_run {f : Declaration} {requests : List Request}
    (h : f ∈ (s.run requests).calculator.functions.declarations) :
    f ∈ s.calculator.functions.declarations ∨
      ∃ request ∈ requests, request.declaration? = some f := by
  induction requests using List.reverseRecOn with
  | nil => exact .inl h
  | append_singleton requests request ih =>
    rw [run_concat, calculator_next, Request.change] at h
    have hearlier : f ∈ (s.run requests).calculator.functions.declarations →
        f ∈ s.calculator.functions.declarations ∨
          ∃ r ∈ requests ++ [request], r.declaration? = some f := by
      intro hf
      obtain hf | ⟨r, hr, hd⟩ := ih hf
      · exact .inl hf
      · exact .inr ⟨r, List.mem_append_left _ hr, hd⟩
    cases hd : request.declaration? with
    | none =>
      rw [hd] at h
      exact hearlier h
    | some d =>
      rw [hd] at h
      rcases Registry.mem_place h with rfl | h
      · exact .inr ⟨request, List.mem_append_right _ List.mem_cons_self, hd⟩
      · exact hearlier h

end Session

/-! ## Texts -/

namespace Calculator

/-- The text has an expression, or none, or an error; and it has an answer and an output. -/
structure Answers (c : Calculator) (text : String) : Prop where
  parse : (∃ e, (Parser.parse c.context text).value = .ok e) ∨
    ∃ e, (Parser.parse c.context text).value = .error (.rejected e)
  evaluate : ∃ a, (c.evaluate (some text)).value = .ok a
  calculate : ∃ output, (c.calculate (some text)).value = .ok output

/-- The text has neither an answer nor an output; the attempt ends like this. -/
structure Escapes (c : Calculator) (text : String) (escape : Escape) : Prop where
  evaluate : (c.evaluate (some text)).value = .error escape
  calculate : (c.calculate (some text)).value = .error escape

variable {c : Calculator} {text : String}

/-- **A text escapes if its reading stumbles.** -/
theorem escapes_of_stumbles {f : Declaration} (h : Parser.Stumbles c.context text f) :
    (Parser.parse c.context text).value = .error (.uncounted f.name) ∧
      c.Escapes text (.uncounted f.name) := by
  have hraw := Parser.parseRaw_eq_uncounted_iff.2 ⟨f, h, rfl⟩
  have hparse := parse_eq_uncounted_iff.2 ⟨text, f, rfl, h, rfl⟩
  have hevaluate : (c.evaluate (some text)).value = .error (.uncounted f.name) := by
    rw [evaluate]
    dsimp only
    rw [hparse]
  refine ⟨?_, hevaluate, calculate_of_escape hevaluate⟩
  rw [Parser.parse_value, hraw]
  rfl

/-- It escapes as well if its evaluation ends in a failure that cannot be shown. -/
theorem escapes_of_endsUnshowable {name : String} (h : c.EndsUnshowable (some text) name) :
    c.Escapes text (.unshowable name) := by
  obtain ⟨e, kind, hparse, hfailure⟩ := h
  have hevaluate := evaluate_of_unshowable hparse hfailure
  exact ⟨hevaluate, calculate_of_escape hevaluate⟩

/-- **There is no other way to escape**, if the host has room. -/
theorem answers_iff : c.Answers text ↔
    (∀ f, ¬ Parser.Stumbles c.context text f) ∧
      (∀ x, (Parser.parse c.context text).value ≠ .error (.exhausted x)) ∧
      ∀ name, ¬ c.EndsUnshowable (some text) name := by
  constructor
  · intro h
    obtain ⟨a, ha⟩ := h.evaluate
    refine ⟨fun f hf ↦ ?_, fun x hx ↦ ?_, fun name hname ↦ ?_⟩
    · cases ha.symm.trans (escapes_of_stumbles hf).2.evaluate
    · obtain ⟨e, he⟩ | ⟨e, he⟩ := h.parse <;> cases he.symm.trans hx
    · cases ha.symm.trans (escapes_of_endsUnshowable hname).evaluate
  · rintro ⟨hstumbles, hroom, hshowable⟩
    have hparse : (∃ e, (Parser.parse c.context text).value = .ok e) ∨
        ∃ e, (Parser.parse c.context text).value = .error (.rejected e) := by
      cases hvalue : (Parser.parse c.context text).value with
      | ok e => exact .inl ⟨e, rfl⟩
      | error u =>
        cases u with
        | rejected e => exact .inr ⟨e, rfl⟩
        | exhausted x => exact absurd hvalue (hroom x)
        | uncounted name =>
          rw [Parser.parse_value, Parser.bind_grouped_eq_error_iff fun _ h ↦ by cases h] at hvalue
          obtain ⟨f, hf, -⟩ := Parser.parseRaw_eq_uncounted_iff.1 hvalue
          exact absurd hf (hstumbles f)
    have hne : ∀ name, (c.parse (some text)).value ≠ .error (.uncounted name) := by
      intro name hname
      obtain ⟨s, f, hs, hf, -⟩ := parse_eq_uncounted_iff.1 hname
      cases hs
      exact hstumbles f hf
    have hroom' : ∀ x, (c.parse (some text)).value ≠ .error (.exhausted x) := by
      intro x hx
      rw [parse] at hx
      split at hx
      · cases hx
      · exact hroom x hx
    obtain ⟨a, ha, -⟩ | ⟨x, hx, -⟩ | ⟨e, kind, name, he, hfailure, -⟩ := exists_answer hne
    · exact ⟨hparse, ⟨a, ha⟩, ⟨_, calculate_of_evaluate ha⟩⟩
    · exact absurd hx (hroom' x)
    · exact absurd ⟨e, kind, he, hfailure⟩ (hshowable name)

end Calculator

/-! ## Sessions -/

namespace Session

/-- **Whatever is registered, texts are answered and refusals are about values, up to three gaps.**
Let a session begin with functions whose arities can be counted to, as new calculators do, and let
any requests follow.  Then a registration is accepted exactly if its name can be spelled, its arity
is one, two or three in any form and there is a procedure; it is accepted or refused for its values
exactly if it does not have a proper name and a list or a dictionary as its arity; and if it fails,
it changes nothing.  A text has an expression, nothing or an error, an answer and an output exactly
if its reading does not come to a call of a function whose arity cannot be counted to, the host has
room to group its expression, and its evaluation does not end in a failure that cannot be shown.  A
function of the first kind was registered with a floating-point arity, and its name is all that is
left of such a text; and all that is left of a text of the last kind is the class of the error in
which the attempt to show the failure ends. -/
theorem answers_run {c : Calculator} (hcounted : c.functions.Counted) (requests : List Request) :
    let s := (ofCalculator c).run requests
    (∀ (name arity : Value) (procedure : Option Procedure),
      ((s.step (.register name arity procedure)).value.isOk ↔
        name.isName ∧ (Arity.ofValue? arity).isSome ∧ procedure.isSome) ∧
      (s.Settles (.register name arity procedure) ↔ ¬ (name.isName ∧ arity.isCollection)) ∧
      ((s.step (.register name arity procedure)).value.isOk = false →
        s.next (.register name arity procedure) = s)) ∧
    ∀ text : String,
      (s.calculator.Answers text ↔
        (∀ f, ¬ Parser.Stumbles s.calculator.context text f) ∧
        (∀ x, (Parser.parse s.calculator.context text).value ≠ .error (.exhausted x)) ∧
        ∀ name, ¬ s.calculator.EndsUnshowable (some text) name) ∧
      (∀ f, Parser.Stumbles s.calculator.context text f →
        (Parser.parse s.calculator.context text).value = .error (.uncounted f.name) ∧
        s.calculator.Escapes text (.uncounted f.name) ∧
        ∃ name x procedure, .register name (.float x) procedure ∈ requests ∧
          Registry.declare name (.float x) procedure = .ok f) ∧
      ∀ name, s.calculator.EndsUnshowable (some text) name →
        s.calculator.Escapes text (.unshowable name) := by
  intro s
  refine ⟨fun name arity procedure ↦ ⟨isOk_register_iff, settles_register_iff, fun hfails ↦ ?_⟩,
    fun text ↦ ⟨Calculator.answers_iff, fun f hf ↦ ?_,
      fun _ ↦ Calculator.escapes_of_endsUnshowable⟩⟩
  · cases hstep : (s.step (.register name arity procedure)).value with
    | ok r => rw [hstep] at hfails; cases hfails
    | error e => exact next_of_error hstep
  · obtain ⟨hparse, hescapes⟩ := Calculator.escapes_of_stumbles hf
    refine ⟨hparse, hescapes, ?_⟩
    obtain ⟨hmem, hf⟩ := hf.reads.mem Reader.declared_start
    obtain hmem | ⟨request, hrequest, hd⟩ := declared_run hmem
    · exact absurd (hcounted f hmem) (by simp [hf])
    · obtain ⟨name, arity, procedure, rfl, hdeclare⟩ := Request.exists_register hd
      obtain ⟨-, -, harity, -⟩ := Registry.declare_eq_ok_iff.1 hdeclare
      obtain ⟨x, rfl⟩ := Arity.exists_float_of_ofValue? harity hf
      exact ⟨name, x, procedure, hrequest, hdeclare⟩

/-! ## A function of one half -/

/-- The registration of a function of one argument, with the arity as a floating-point number. -/
def registerHalf : Request :=
  .register (.text "half") (.float ⟨0x3ff0000000000000⟩) (some (.firstAt id))

/-- A function of the same name whose arity can be counted to. -/
def half : Declaration := ⟨"HALF", ⟨1, .whole⟩, .firstAt id⟩

/-- The standard calculator with this function. -/
def withHalf : Calculator :=
  { Calculator.standardOn .native with
    functions := ⟨(Calculator.standardOn .native).functions.declarations ++ [half]⟩ }

theorem parse_half : (withHalf.parse (some "half(7)")).value =
    .ok (some (.chain false (half.call [.const (.finite false 7 0)]) [])) := by
  have hname : isName half.name := by decide
  have hfunctions : withHalf.functions.WellFormed := by
    intro d hd
    obtain hd | hd := List.mem_append.1 hd
    · exact Registry.wellFormed_builtins _ d hd
    · rw [List.mem_singleton.1 hd]
      exact ⟨hname, by decide, by decide⟩
  have hfits : withHalf.Fits "half(7)" := Calculator.fits_of_native hfunctions rfl (Int.le_refl _) _
  have hlexemes : Grammar.lexemes false "half(7)" =
      [] ++ Lexeme.name ['h', 'a', 'l', 'f'] :: Lexeme.symbol '(' :: [Lexeme.number ['7']] ++
        [Lexeme.symbol ')'] := by
    decide +kernel
  have hlookup : withHalf.context.functions.lookup? (String.ofList ['h', 'a', 'l', 'f']) =
      some half :=
    (List.find?_cons_of_neg (by decide +kernel)).trans
      ((List.find?_cons_of_neg (by decide +kernel)).trans
        ((List.find?_cons_of_neg (by decide +kernel)).trans
          (List.find?_cons_of_pos (by decide +kernel))))
  have hspells : Grammar.Spells withHalf.context 1 (Grammar.lexemes false "half(7)")
      (.chain false (half.call [.const (.finite false 7 0)]) []) := by
    rw [hlexemes]
    exact ⟨_, _, .single (.call (.nil _) rfl hlookup rfl
      (.first (.single (.digit (by decide) 0 (show 7 < 10 by decide))))), rfl⟩
  exact hfits.parse_of_parseRaw (hfits.parseRaw_of_spells (by decide) (by decide) hspells)

/-- If such a function follows, the text is answered. -/
theorem answers_run_replacedHalf :
    (Calculator.standardOn .native).functions.Counted ∧
      ((ofCalculator (.standardOn .native)).run [registerHalf,
        .register (.text "HALF") (.integer 1) (some (.firstAt id))]).calculator = withHalf ∧
      withHalf.Answers "half(7)" := by
  have hcounted : (Calculator.standardOn .native).functions.Counted :=
    Registry.counted_builtins _
  have hrun : ((ofCalculator (.standardOn .native)).run [registerHalf,
      .register (.text "HALF") (.integer 1) (some (.firstAt id))]).calculator = withHalf := rfl
  have hanswers := ((answers_run hcounted [registerHalf,
    .register (.text "HALF") (.integer 1) (some (.firstAt id))]).2 "half(7)").1
  rw [hrun] at hanswers
  refine ⟨hcounted, hrun, hanswers.2 ⟨fun f hf ↦ ?_, fun x hx ↦ ?_, ?_⟩⟩
  · have hstumbles := Calculator.parse_eq_uncounted_iff.2 ⟨_, f, rfl, hf, rfl⟩
    rw [parse_half] at hstumbles
    cases hstumbles
  · have hblank : Calculator.isBlank "half(7)" = false := by decide +kernel
    have hparse : withHalf.parse (some "half(7)") = Parser.parse withHalf.context "half(7)" := by
      rw [Calculator.parse, if_neg (by simp [hblank])]
    rw [← hparse, parse_half] at hx
    cases hx
  · rintro name ⟨e, kind, he, hvalue⟩
    rw [parse_half] at he
    cases he
    cases (Calculator.valueOf_eq_unshowable_iff.1 hvalue).2

/-- The function is accepted, and then a text that calls it is not answered.  A list of an arity is
refused, but not for its value. -/
theorem not_answers_half :
    ((ofCalculator (.standardOn .native)).step registerHalf).value.isOk ∧
      ¬ ((ofCalculator (.standardOn .native)).run [registerHalf]).calculator.Answers "half(7)" ∧
      ¬ (ofCalculator (.standardOn .native)).Settles
        (.register (.text "g") (.list [.integer 1]) (some (.firstAt id))) := by
  refine ⟨rfl, fun hanswers ↦ ?_, fun hsettles ↦ settles_register_iff.1 hsettles (by decide)⟩
  have htokens : (Token.ofText false "half(7)").dropLast =
      [⟨.name ['h', 'a', 'l', 'f'], 0⟩, ⟨.symbol '(', 4⟩, ⟨.number ['7'], 5⟩,
        ⟨.symbol ')', 6⟩] := by
    decide +kernel
  refine (Calculator.answers_iff.1 hanswers).1 ⟨"half", ⟨1, .floating⟩, .firstAt id⟩
    ⟨by decide, by decide, ?_⟩
  show Reader.Stumbles _ _ (Token.ofText false "half(7)").dropLast _
  rw [htokens]
  exact .later rfl (.here rfl rfl rfl)

end Session

end Formula
