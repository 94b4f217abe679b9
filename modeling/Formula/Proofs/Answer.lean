import Formula.Proofs.Rendering.Constant
import Formula.Proofs.Room

/-!
# Texts are answered

Whatever a text is and whatever the registered functions do, the calculator has an answer to it, as
long as the arities of the functions can be counted to and the host has room.  A function may return
anything, end in nearly any way and leave its arguments alone; all of it stays inside of the answer.
The exception is a function that raises an error which cannot be shown.

Who calls the calculator tells errors from results by their first character.  So an answer is well
formed (`Answer.WellFormed`) if it has either a result or an error, the error begins like an error
token and the result does not.

* `evaluate_cases` — the ways in which a text is dealt with: it has no expression and needs none, it
  has one, it is rejected, or there is no room to group its expression.
* `exists_answer` — whether there is an answer, and what it is like.
* `evaluate_wellFormed` — the main result, and `not_evaluate_speechless`, a text without an answer.
-/

set_option autoImplicit false

namespace Formula

open Log Reader

/-! ## Error tokens -/

/-- The text begins like an error token. -/
def IsToken (s : String) : Prop := s.toList.head? = some '#'

/-- A number in plain notation begins with a sign or a digit, and anything else with a letter. -/
theorem not_isToken_plain (d : Decimal) : ¬ IsToken (String.ofList d.plain) := by
  rw [IsToken, String.toList_ofList]
  cases d with
  | finite s c e =>
    obtain ⟨x, xs, hx, hdigit⟩ := Grammar.exists_cons_plainDigits c e
    rw [Decimal.plain, hx]
    split
    · simp
    · rw [List.head?_cons, Option.some.injEq]
      rintro rfl
      exact absurd hdigit (by decide)
  | infinity s => cases s <;> decide
  | nan s => cases s <;> decide

namespace Calculator

theorem isToken_syntaxToken : IsToken syntaxToken := rfl

theorem isToken_errorToken (message : String) : IsToken (errorToken message) := by
  have htext : errorToken message = "#ERROR(" ++ message ++ ")" := rfl
  rw [IsToken, htext, String.toList_append, String.toList_append]
  rfl

/-- The error token of a failure that has a message. -/
theorem tokenOf_of_message {f : Failure} {message : String} (h : f.message = .ok message) :
    tokenOf f = .ok (if f.kind = .evaluation ∧ isTokenMessage message then message
      else errorToken message) := by
  rw [tokenOf, h]
  rfl

/-- A failure that has a message is one that can be shown. -/
theorem message_eq_error_iff {f : Failure} {escape : String} :
    f.message = .error escape ↔ ∃ kind, f = .unshowable kind escape := by
  cases f <;> simp [Failure.message]

/-- **Every failure has an error token**, its own message or one around it, unless it cannot be
shown. -/
theorem tokenOf_eq_error_iff {f : Failure} {escape : Escape} :
    tokenOf f = .error escape ↔
      ∃ kind name, f = .unshowable kind name ∧ escape = .unshowable name := by
  cases hmessage : f.message with
  | ok message =>
    rw [tokenOf_of_message hmessage]
    refine iff_of_false (by simp) ?_
    rintro ⟨kind, name, rfl, -⟩
    cases hmessage
  | error name =>
    obtain ⟨kind, rfl⟩ := message_eq_error_iff.1 hmessage
    constructor
    · intro h
      cases h
      exact ⟨kind, name, rfl, rfl⟩
    · rintro ⟨_, _, h, rfl⟩
      cases h
      rfl

theorem isToken_of_tokenOf {f : Failure} {token : String} (h : tokenOf f = .ok token) :
    IsToken token := by
  cases hmessage : f.message with
  | ok message =>
    rw [tokenOf_of_message hmessage] at h
    obtain rfl := Except.ok.inj h
    split
    · rename_i htoken
      have hhead := htoken.2
      rw [isTokenMessage, decide_eq_true_eq] at hhead
      exact hhead
    · exact isToken_errorToken message
  | error name =>
    obtain ⟨kind, rfl⟩ := message_eq_error_iff.1 hmessage
    cases h

end Calculator

/-! ## Well-formed answers -/

namespace Answer

/-- An answer in which errors and results can be told apart. -/
structure WellFormed (a : Answer) : Prop where
  /-- The answer is positive exactly if there is no error. -/
  ok_iff : a.ok ↔ a.error = none
  /-- There is either a result or an error. -/
  result_iff : a.result.isSome ↔ a.error = none
  error_isToken : ∀ t, a.error = some t → IsToken t
  result_not_isToken : ∀ t, a.result = some t → ¬ IsToken t

/-- **The output begins like an error token exactly if the answer is negative.** -/
theorem WellFormed.isToken_output_iff {a : Answer} (h : a.WellFormed) :
    IsToken a.output ↔ a.ok = false := by
  cases hok : a.ok with
  | true =>
    obtain ⟨t, ht⟩ := Option.isSome_iff_exists.1 (h.result_iff.2 (h.ok_iff.1 hok))
    rw [output, if_pos hok, ht]
    exact iff_of_false (h.result_not_isToken t ht) (by simp)
  | false =>
    have herror : a.error ≠ none := fun hnone ↦ by rw [h.ok_iff.2 hnone] at hok; cases hok
    obtain ⟨t, ht⟩ := Option.ne_none_iff_exists'.1 herror
    rw [output, if_neg (by simp [hok]), ht]
    exact iff_of_true (h.error_isToken t ht) rfl

/-- An answer with a result and nothing else than an expression. -/
theorem WellFormed.of_result {result : String} (h : ¬ IsToken result) (tree : Option String) :
    WellFormed { ok := true, result := some result, tree := tree } where
  ok_iff := by simp
  result_iff := by simp
  error_isToken := by simp
  result_not_isToken := by simpa using h

/-- An answer with an error and nothing else than an expression. -/
theorem WellFormed.of_error {token : String} (h : IsToken token) (tree : Option String) :
    WellFormed { ok := false, error := some token, tree := tree } where
  ok_iff := by simp
  result_iff := by simp
  error_isToken := by simpa using h
  result_not_isToken := by simp

end Answer

namespace Calculator

/-! ## The answers to a text -/

variable {c : Calculator}

/-- An answer about an expression shows the expression, whatever its evaluation ends with. -/
theorem answer_spec {text : String} {e : Expr} {a : Answer} (h : (c.answer text e).value = .ok a) :
    a.WellFormed ∧ a.tree = (c.shown e).toOption := by
  rw [answer] at h
  dsimp only at h
  cases hvalue : c.valueOf e with
  | ok d =>
    rw [hvalue] at h
    obtain rfl := Except.ok.inj h
    exact ⟨.of_result (not_isToken_plain _) _, rfl⟩
  | error f =>
    rw [hvalue] at h
    dsimp only at h
    cases htoken : tokenOf f with
    | error escape => rw [htoken] at h; cases h
    | ok token =>
      rw [htoken] at h
      obtain rfl := Except.ok.inj h
      exact ⟨.of_error (isToken_of_tokenOf htoken) _, rfl⟩

/-- There is no answer if the evaluation ends in a failure that cannot be shown. -/
theorem answer_eq_error_iff {text : String} {e : Expr} {escape : Escape} :
    (c.answer text e).value = .error escape ↔
      ∃ kind name, c.valueOf e = .error (.unshowable kind name) ∧ escape = .unshowable name := by
  rw [answer]
  dsimp only
  cases hvalue : c.valueOf e with
  | ok d => simp
  | error f =>
    dsimp only
    have hiff : tokenOf f = .error escape ↔ _ := tokenOf_eq_error_iff
    cases htoken : tokenOf f with
    | error escape' => simpa [htoken] using hiff
    | ok token => simpa [htoken] using hiff

/-- What is not shown is not evaluated, so the evaluation itself has failed. -/
theorem valueOf_eq_unshowable_iff {e : Expr} {kind : Failure.Kind} {name : String} :
    c.valueOf e = .error (.unshowable kind name) ↔ c.host.renderingFault? e = none ∧
      e.eval c.arithmetic c.scale = .error (.unshowable kind name) := by
  cases hx : c.host.renderingFault? e with
  | none => rw [valueOf_eq_eval hx]; simp
  | some x =>
    have hvalue : c.valueOf e = .error (failureOf x) := by rw [valueOf, shown, hx]; rfl
    rw [hvalue]
    simp [failureOf]

theorem rejection_wellFormed (text : String) (e : ParseError) :
    (rejection text e).value.WellFormed := .of_error isToken_syntaxToken _

theorem blank_wellFormed : Answer.blank.WellFormed := .of_result (by simp [IsToken]) _

/-- A text in which a reading stumbles has a parenthesis in it. -/
theorem isBlank_eq_false_of_stumbles {ctx : Context} {text : String} {f : Declaration}
    (h : Parser.Stumbles ctx text f) : isBlank text = false := by
  obtain ⟨t, ht, hopening⟩ := h.reads.exists_opening
  have hmem : Lexeme.symbol '(' ∈ Grammar.lexemes ctx.dialect.strict text :=
    List.mem_map.2 ⟨t, ht, hopening⟩
  have hpart := Grammar.text_infix_of_mem_lexemes hmem
  exact isBlank_eq_false (hpart.subset (List.mem_singleton.2 rfl)) (by decide)

/-- **A text has neither an expression nor an error exactly if its reading stumbles.** -/
theorem parse_eq_uncounted_iff {text : Option String} {name : String} :
    (c.parse text).value = .error (.uncounted name) ↔
      ∃ s f, text = some s ∧ Parser.Stumbles c.context s f ∧ f.name = name := by
  rw [parse_value, Parser.bind_grouped_eq_error_iff fun _ h ↦ by cases h]
  cases text with
  | none => exact iff_of_false (by simp [parseRaw, Logged.quiet]) (by simp)
  | some s =>
    rw [parseRaw]
    split
    · rename_i hblank
      refine iff_of_false (by simp [Logged.quiet]) ?_
      rintro ⟨s', f, hs, hf, -⟩
      cases hs
      simp [isBlank_eq_false_of_stumbles hf] at hblank
    · rw [Parser.parseRaw_eq_uncounted_iff]
      simp

theorem parse_ne_uncounted (hcounted : c.functions.Counted) (text : Option String) (f : String) :
    (c.parse text).value ≠ .error (.uncounted f) := by
  intro h
  obtain ⟨s, d, -, hd, -⟩ := parse_eq_uncounted_iff.1 h
  obtain ⟨hmem, hd⟩ := hd.reads.mem declared_start
  exact absurd (hcounted d hmem) (by simp [hd])

/-- **A text is dealt with in one of four ways**: by nothing, by what its expression comes to, by a
rejection, or by giving up, unless it calls a function whose arity cannot be counted to. -/
theorem evaluate_cases {text : Option String}
    (hne : ∀ f, (c.parse text).value ≠ .error (.uncounted f)) :
    (c.parse text).value = .ok none ∧ (c.evaluate text).value = .ok .blank ∨
      (∃ s e, text = some s ∧ (c.parse text).value = .ok (some e) ∧
        (c.evaluate text).value = (c.answer s e).value) ∨
      (∃ s e, text = some s ∧ (c.parse text).value = .error (.rejected e) ∧
        (c.evaluate text).value = .ok (rejection s e).value) ∨
      ∃ x, (c.parse text).value = .error (.exhausted x) ∧
        (c.evaluate text).value = .error (.exhausted x) := by
  cases text with
  | none => exact .inl ⟨rfl, rfl⟩
  | some s =>
    rw [evaluate]
    dsimp only
    cases h : (c.parse (some s)).value with
    | ok e =>
      cases e with
      | none => exact .inl ⟨rfl, rfl⟩
      | some e => exact .inr (.inl ⟨s, e, rfl, rfl, rfl⟩)
    | error u =>
      cases u with
      | rejected e => exact .inr (.inr (.inl ⟨s, e, rfl, rfl, rfl⟩))
      | uncounted f => exact absurd h (hne f)
      | exhausted x => exact .inr (.inr (.inr ⟨x, rfl, rfl⟩))

/-- A text that is read is not blank, so the calculator reads it as well. -/
theorem parseRaw_some_iff_reading (hfunctions : c.functions.WellFormed) {text : Option String}
    {e : Expr} : (c.parseRaw text).value = .ok (some e) ↔
      ∃ s, text = some s ∧ (Parser.parseRaw c.context s).value = .ok (some e) := by
  constructor
  · intro h
    cases text with
    | none => cases h
    | some s => exact ⟨s, rfl, (parseRaw_of_calculator h).2⟩
  · rintro ⟨s, rfl, h⟩
    obtain ⟨-, n, -, hspells⟩ := Grammar.spells_of_parseRaw (fun d hd ↦ (hfunctions d hd).2.1) h
    rw [parseRaw, if_neg (by simp [isBlank_eq_false_of_spells hspells])]
    exact h

/-- A text has an answer, which shows the expression of the text if it has one, unless there is no
room to group the expression, or its value is a failure that cannot be shown. -/
theorem exists_answer {text : Option String}
    (hne : ∀ f, (c.parse text).value ≠ .error (.uncounted f)) :
    (∃ a, (c.evaluate text).value = .ok a ∧ a.WellFormed ∧
        ∀ t, a.tree = some t ↔ ∃ e, (c.parse text).value = .ok (some e) ∧ c.shown e = .ok t) ∨
      (∃ x, (c.parse text).value = .error (.exhausted x) ∧
        (c.evaluate text).value = .error (.exhausted x)) ∨
      ∃ e kind name, (c.parse text).value = .ok (some e) ∧
        c.valueOf e = .error (.unshowable kind name) ∧
        (c.evaluate text).value = .error (.unshowable name) := by
  obtain ⟨hparse, hvalue⟩ | ⟨s, e, -, hparse, hvalue⟩ | ⟨s, e, -, hparse, hvalue⟩ | h :=
    evaluate_cases hne
  · exact .inl ⟨_, hvalue, blank_wellFormed, fun t ↦ by simp [hparse, Answer.blank]⟩
  · cases hanswer : (c.answer s e).value with
    | ok a =>
      obtain ⟨hwell, htree⟩ := answer_spec hanswer
      refine .inl ⟨a, hvalue.trans hanswer, hwell, fun t ↦ ?_⟩
      rw [htree]
      cases hshown : c.shown e <;> simp [hparse, hshown, Except.toOption]
    | error escape =>
      obtain ⟨kind, name, hfailure, rfl⟩ := answer_eq_error_iff.1 hanswer
      exact .inr (.inr ⟨e, kind, name, hparse, hfailure, hvalue.trans hanswer⟩)
  · exact .inl ⟨_, hvalue, rejection_wellFormed s e, fun t ↦ by simp [hparse, rejection]⟩
  · exact .inr (.inl h)

theorem calculate_of_evaluate {text : Option String} {a : Answer}
    (h : (c.evaluate text).value = .ok a) : (c.calculate text).value = .ok a.output := by
  rw [calculate, Logged.map, h]
  rfl

theorem calculate_of_escape {text : Option String} {escape : Escape}
    (h : (c.evaluate text).value = .error escape) : (c.calculate text).value = .error escape := by
  rw [calculate, Logged.map, h]
  rfl

/-- The text has an expression whose evaluation ends in a failure that cannot be shown.  The attempt
ends in an error of the class `name`. -/
def EndsUnshowable (c : Calculator) (text : Option String) (name : String) : Prop :=
  ∃ e kind, (c.parse text).value = .ok (some e) ∧ c.valueOf e = .error (.unshowable kind name)

theorem evaluate_of_unshowable {s name : String} {e : Expr} {kind : Failure.Kind}
    (hparse : (c.parse (some s)).value = .ok (some e))
    (h : c.valueOf e = .error (.unshowable kind name)) :
    (c.evaluate (some s)).value = .error (.unshowable name) := by
  rw [evaluate_of_parse hparse]
  exact answer_eq_error_iff.2 ⟨kind, name, h, rfl⟩

/-- With room, what is shown of a text is the expression that is written there, grouped by tiers. -/
theorem Fits.shows_iff (hfunctions : c.functions.WellFormed) {s t : String} (h : c.Fits s) :
    (∃ e, (c.parse (some s)).value = .ok (some e) ∧ c.shown e = .ok t) ↔
      ∃ s' e, some s = some s' ∧ (Parser.parseRaw c.context s').value = .ok (some e) ∧
        t = e.group.text := by
  constructor
  · rintro ⟨e, he, ht⟩
    obtain ⟨raw, hraw, -, rfl⟩ := parse_eq_some_iff.1 he
    obtain ⟨s', hs, hread⟩ := (parseRaw_some_iff_reading hfunctions).1 hraw
    rw [h.shown_eq he] at ht
    exact ⟨s', raw, hs, hread, (Except.ok.inj ht).symm⟩
  · rintro ⟨s', e, hs, he, rfl⟩
    have hraw := (parseRaw_some_iff_reading hfunctions).2 ⟨s', hs, he⟩
    have hparse := h.parse_of_parseRaw hraw
    exact ⟨e.group, hparse, h.shown_eq hparse⟩

/-- **A text has a well-formed answer or ends in a failure that cannot be shown.**  Let the
functions of the calculator have names that can be spelled and arities from one to three that can be
counted to, and let the host have room for the text.  If the evaluation of the text ends in a
failure that cannot be shown, then the attempt to show it is how everything ends.  If it does not,
then there is a well-formed answer.  It shows an expression exactly if the text has one, and then it
is the one that is written there, grouped by tiers, whether or not it has a value.  The output
begins like an error token exactly if the answer is negative. -/
theorem evaluate_wellFormed (hfunctions : c.functions.WellFormed) (hcounted : c.functions.Counted)
    (text : Option String) (hfits : ∀ s, text = some s → c.Fits s) :
    (∀ name, c.EndsUnshowable text name → (c.evaluate text).value = .error (.unshowable name) ∧
      (c.calculate text).value = .error (.unshowable name)) ∧
    ((∀ name, ¬ c.EndsUnshowable text name) →
      ∃ a, (c.evaluate text).value = .ok a ∧ a.WellFormed ∧
        (∀ t, a.tree = some t ↔ ∃ s e, text = some s ∧
          (Parser.parseRaw c.context s).value = .ok (some e) ∧ t = e.group.text) ∧
        (c.calculate text).value = .ok a.output ∧ (IsToken a.output ↔ a.ok = false)) := by
  cases text with
  | none =>
    refine ⟨fun name hname ↦ ?_, fun _ ↦ ⟨.blank, rfl, blank_wellFormed, fun t ↦ ?_, rfl,
      blank_wellFormed.isToken_output_iff⟩⟩
    · obtain ⟨e, kind, hparse, -⟩ := hname
      cases hparse
    · simp [Answer.blank]
  | some s =>
    have hfits := hfits s rfl
    constructor
    · rintro name ⟨e, kind, hparse, hfailure⟩
      have hvalue := evaluate_of_unshowable hparse hfailure
      exact ⟨hvalue, calculate_of_escape hvalue⟩
    · intro hnone
      obtain ⟨a, hvalue, hwell, htree⟩ | ⟨x, hparse, -⟩ | ⟨e, kind, name, hparse, hfailure, -⟩ :=
        exists_answer (parse_ne_uncounted hcounted (some s))
      · exact ⟨a, hvalue, hwell, fun t ↦ (htree t).trans (hfits.shows_iff hfunctions),
          calculate_of_evaluate hvalue, hwell.isToken_output_iff⟩
      · exact absurd hparse (hfits.parse_ne_exhausted x)
      · exact absurd ⟨e, kind, hparse, hfailure⟩ (hnone name)

/-! ## Functions that fail -/

open Grammar

/-- A function that fails without looking at its argument. -/
def failing (f : Failure) : Declaration := ⟨"Boom", ⟨1, .whole⟩, fun _ _ ↦ .error f⟩

/-- A calculator with this function alone. -/
def failingAlone (f : Failure) : Calculator :=
  { standardOn .native with functions := ⟨[failing f]⟩ }

/-- `boom(7)`, grouped by tiers or as it is written. -/
def failingCall (f : Failure) : Expr :=
  .chain false ((failing f).call [.const (.finite false 7 0)]) []

section

variable (f : Failure)

theorem register_failing :
    Registry.empty.register (.text "Boom") (.integer 1) (some (failing f).procedure) =
      .ok ((failingAlone f).functions, []) := rfl

theorem wellFormed_failing : (failingAlone f).functions.WellFormed :=
  Registry.wellFormed_empty.register (register_failing f)

theorem counted_failing : (failingAlone f).functions.Counted := by
  have hcounted : Registry.empty.Counted := by simp [Registry.Counted, Registry.empty]
  exact hcounted.register (register_failing f)

theorem operand_failing {n : Nat} {ls : List Lexeme} {e : Expr}
    (h : Operand (failingAlone f).context n ls e) :
    Operand (failingAlone f).context (n + 1)
      ([] ++ Lexeme.name ['b', 'o', 'o', 'm'] :: Lexeme.symbol '(' :: ls ++ [Lexeme.symbol ')'])
      ((failing f).call [e]) := by
  have hkey : (failing f).key = Text.foldCase (String.ofList ['b', 'o', 'o', 'm']) := by
    show Text.foldCase "Boom" = _
    decide +kernel
  have hboom : (failingAlone f).context.functions.lookup? (String.ofList ['b', 'o', 'o', 'm']) =
      some (failing f) := List.find?_cons_of_pos (decide_eq_true hkey)
  exact .call (.nil _) rfl hboom rfl (.first (.single h))

theorem fits_failing (text : String) : (failingAlone f).Fits text :=
  fits_of_native (wellFormed_failing f) rfl (Int.le_refl _) text

theorem parse_failingCall :
    ((failingAlone f).parse (some "boom(7)")).value = .ok (some (failingCall f)) := by
  have hlexemes : lexemes false "boom(7)" =
      [] ++ Lexeme.name ['b', 'o', 'o', 'm'] :: Lexeme.symbol '(' :: [Lexeme.number ['7']] ++
        [Lexeme.symbol ')'] := by
    decide +kernel
  have hspells : Spells (failingAlone f).context 1 (lexemes false "boom(7)") (failingCall f) := by
    rw [hlexemes]
    exact ⟨_, _, .single (operand_failing f
      (.digit (show (0 : Int) ≤ 10000 by decide) 0 (show 7 < 10 by decide))), rfl⟩
  have hfits := fits_failing f "boom(7)"
  exact hfits.parse_of_parseRaw <| hfits.parseRaw_of_spells (show (7 : Int) ≤ 10000 by decide)
    (show (1 : Int) ≤ 100 by decide) hspells

end

/-- An error of another language. -/
def missingKey : Failure := .abrupt "KeyError" "'missing'"

/-- The failure is in the answer, and the answer still shows the expression. -/
theorem evaluate_wellFormed_missingKey :
    (failingAlone missingKey).functions.WellFormed ∧ (failingAlone missingKey).functions.Counted ∧
      (failingAlone missingKey).Fits "boom(7)" ∧
      (∀ name, ¬ (failingAlone missingKey).EndsUnshowable (some "boom(7)") name) ∧
      ∃ a, ((failingAlone missingKey).evaluate (some "boom(7)")).value = .ok a ∧ a.WellFormed ∧
        a.tree = some (failingCall missingKey).text ∧ a.error = some "#ERROR('missing')" ∧
        IsToken a.output := by
  have hfits := fits_failing missingKey "boom(7)"
  have hparse := parse_failingCall missingKey
  have hnone : ∀ name, ¬ (failingAlone missingKey).EndsUnshowable (some "boom(7)") name := by
    rintro name ⟨e, kind, he, hvalue⟩
    rw [hparse] at he
    cases he
    cases (valueOf_eq_unshowable_iff.1 hvalue).2
  have hanswer : ((failingAlone missingKey).evaluate (some "boom(7)")).value =
      .ok { ok := false, error := some "#ERROR('missing')",
            tree := some (failingCall missingKey).text } := by
    rw [evaluate_of_parse hparse]
    rfl
  obtain ⟨a, hvalue, hwell, -, -, htoken⟩ := (evaluate_wellFormed (wellFormed_failing missingKey)
    (counted_failing missingKey) (some "boom(7)") fun s hs ↦ Option.some.inj hs ▸ hfits).2 hnone
  obtain rfl := Except.ok.inj (hanswer.symm.trans hvalue)
  exact ⟨wellFormed_failing _, counted_failing _, hfits, hnone, _, hvalue, hwell, rfl, rfl,
    htoken.2 rfl⟩

/-- An error of the calculator itself, with a message that is no text. -/
def speechless : Failure := .unshowable .evaluation "AttributeError"

/-- **An answer is not for every function.**  One that raises an error whose message is no text
leaves the texts that call it without an answer. -/
theorem not_evaluate_speechless :
    (failingAlone speechless).functions.WellFormed ∧ (failingAlone speechless).functions.Counted ∧
      (failingAlone speechless).Fits "boom(7)" ∧
      ((failingAlone speechless).evaluate (some "boom(7)")).value =
        .error (.unshowable "AttributeError") ∧
      ((failingAlone speechless).calculate (some "boom(7)")).value =
        .error (.unshowable "AttributeError") := by
  have hvalue := evaluate_of_unshowable (parse_failingCall speechless)
    (valueOf_eq_unshowable_iff.2
      ⟨(fits_failing speechless "boom(7)").shows _ (parse_failingCall speechless), rfl⟩)
  exact ⟨wellFormed_failing _, counted_failing _, fits_failing _ _, hvalue,
    calculate_of_escape hvalue⟩

end Calculator

end Formula
