import Formula.Calculator
import Formula.Proofs.Digits
import Formula.Proofs.Grammar.Reading

/-!
# From texts to outputs

A calculation has three steps: the text is read, its expression is grouped by tiers, and the grouped
expression is evaluated.  What is proved about readings and about values is about one of the steps
alone.  This file puts them together again.

* `parse_value` — what is read is grouped, if the host has room for it.
* `parse_of_spells` — the expression of a text that the grammar derives.
* `outputOf` — the output for the outcome of an evaluation, and `calculate_of_parse`, the output for
  a text that is read.
* `isBlank_eq_false_of_spells` — such a text is not taken for an empty one.
* `standardOn` — the standard calculator on a given host, and `standard_spec`, what is common to all
  standard calculators.
-/

set_option autoImplicit false

namespace Formula

namespace Grammar

variable {ctx : Reader.Context}

/-! ## Texts that are not blank -/

theorem not_isBlank_of_isDigit {c : Char} (h : c.isDigit) : Text.isBlank c = false := by
  obtain ⟨hlower, hupper⟩ := Digits.toNat_of_isDigit h
  simp only [Text.isBlank, Bool.or_eq_false_iff, Bool.and_eq_false_iff, beq_eq_false_iff_ne,
    decide_eq_false_iff_not]
  omega

theorem Mantissa.exists_isDigit {word whole fraction : List Char}
    (h : Mantissa word whole fraction) : ∃ c ∈ word, c.isDigit := by
  cases h with
  | whole hne hdigits =>
    obtain ⟨c, hc⟩ := List.exists_mem_of_ne_nil _ hne
    exact ⟨c, hc, hdigits c hc⟩
  | both hne hdigits _ =>
    obtain ⟨c, hc⟩ := List.exists_mem_of_ne_nil _ hne
    exact ⟨c, List.mem_append_left _ hc, hdigits c hc⟩
  | fraction hne hdigits =>
    obtain ⟨c, hc⟩ := List.exists_mem_of_ne_nil _ hne
    exact ⟨c, List.mem_cons_of_mem _ hc, hdigits c hc⟩

/-- The lexemes of an operand have a digit in them or a parenthesis. -/
theorem Operand.exists_not_isBlank {n : Nat} {ls : List Lexeme} {e : Expr}
    (h : Operand ctx n ls e) : ∃ l ∈ ls, ∃ c ∈ l.text, Text.isBlank c = false := by
  cases h with
  | number _ hliteral =>
    obtain ⟨hmantissa⟩ := hliteral
    obtain ⟨c, hc, hdigit⟩ := hmantissa.exists_isDigit
    exact ⟨_, List.mem_append_right _ List.mem_cons_self, c, List.mem_append_left _ hc,
      not_isBlank_of_isDigit hdigit⟩
  | group => exact ⟨.symbol '(', by simp, '(', List.mem_singleton.2 rfl, by decide⟩
  | call => exact ⟨.symbol '(', by simp, '(', List.mem_singleton.2 rfl, by decide⟩

theorem Chain.exists_not_isBlank : ∀ {n : Nat} {ls : List Lexeme} {head : Expr} {links : List Link},
    Chain ctx n ls head links → ∃ l ∈ ls, ∃ c ∈ l.text, Text.isBlank c = false
  | _, _, _, _, .single hoperand => hoperand.exists_not_isBlank
  | _, _, _, _, .link _ hchain _ => by
    obtain ⟨l, hl, hblank⟩ := hchain.exists_not_isBlank
    exact ⟨l, List.mem_append_left _ hl, hblank⟩

end Grammar

/-! ## Grouped expressions -/

/-- What was read, grouped by tiers if the host has room for it. -/
def Parser.grouped (host : Host) : Option Expr → Except Unreadable (Option Expr)
  | none => .ok none
  | some e =>
    match host.groupingFault? e with
    | some exhaustion => .error (.exhausted exhaustion)
    | none => .ok (some e.group)

theorem Parser.grouped_some {host : Host} {e : Expr} (h : host.groupingFault? e = none) :
    grouped host (some e) = .ok (some e.group) := by
  rw [grouped, h]

/-- Grouping has no errors but those of the host. -/
theorem Parser.bind_grouped_eq_error_iff {host : Host} {x : Except Unreadable (Option Expr)}
    {u : Unreadable} (hu : ∀ exhaustion, u ≠ .exhausted exhaustion) :
    x.bind (grouped host) = .error u ↔ x = .error u := by
  rcases x with u' | _ | e
  · exact Iff.rfl
  · exact iff_of_false nofun nofun
  · refine iff_of_false (fun h ↦ ?_) nofun
    rw [Except.bind, grouped] at h
    split at h
    · exact hu _ (Except.error.inj h).symm
    · cases h

/-- All that happens to an expression after it is read is that it is grouped. -/
theorem Parser.parse_value (ctx : Reader.Context) (text : String) :
    (parse ctx text).value = (parseRaw ctx text).value.bind (grouped ctx.host) := by
  rw [parse]
  dsimp only
  cases h : (parseRaw ctx text).value with
  | error u => exact h
  | ok e =>
    cases e with
    | none => exact h
    | some e =>
      simp only [Except.bind, grouped]
      cases ctx.host.groupingFault? e <;> rfl

namespace Calculator

open Grammar

/-- What a text says is a matter of the dialect, of the functions and of the host. -/
theorem parse_congr {c c' : Calculator} (h : c.context = c'.context) (text : Option String) :
    c.parse text = c'.parse text := by
  cases text with
  | none => rfl
  | some s => rw [parse, parse, h]

theorem parse_value (c : Calculator) (text : Option String) :
    (c.parse text).value = (c.parseRaw text).value.bind (Parser.grouped c.host) := by
  cases text with
  | none => rfl
  | some s =>
    rw [parse, parseRaw]
    split
    · rfl
    · exact Parser.parse_value c.context s

section

variable {c : Calculator} {text : Option String}

/-- The expression of a text is what is written there, grouped by tiers. -/
theorem parse_eq_some_iff {e : Expr} :
    (c.parse text).value = .ok (some e) ↔ ∃ raw, (c.parseRaw text).value = .ok (some raw) ∧
      c.host.groupingFault? raw = none ∧ e = raw.group := by
  rw [parse_value]
  rcases (c.parseRaw text).value with u | _ | raw
  · simp [Except.bind]
  · simp [Except.bind, Parser.grouped]
  · cases h : c.host.groupingFault? raw <;> simp [Except.bind, Parser.grouped, h, eq_comm]

/-- Nothing is wrong with a text that can be read. -/
theorem parse_eq_rejected_iff {e : ParseError} :
    (c.parse text).value = .error (.rejected e) ↔
      (c.parseRaw text).value = .error (.rejected e) := by
  rw [parse_value]
  exact Parser.bind_grouped_eq_error_iff nofun

end

theorem isBlank_eq_false {text : String} {c : Char} (hc : c ∈ text.toList)
    (h : Text.isBlank c = false) : isBlank text = false := by
  rw [isBlank, List.isEmpty_eq_false_iff]
  intro hnil
  rw [Text.strip_eq_nil_iff.1 hnil c hc] at h
  cases h

theorem isBlank_eq_false_of_spells {ctx : Reader.Context} {strict : Bool} {n : Nat} {text : String}
    {e : Expr} (h : Spells ctx n (lexemes strict text) e) : isBlank text = false := by
  obtain ⟨head, links, hchain, -⟩ := h
  obtain ⟨l, hl, c, hc, hblank⟩ := hchain.exists_not_isBlank
  exact isBlank_eq_false ((text_infix_of_mem_lexemes hl).subset hc) hblank

/-! ## Outputs -/

/-- The output for the outcome of an evaluation: the number in plain notation, or an error token. -/
def outputOf : Except Failure Decimal → Except Escape String
  | .ok d => .ok (String.ofList d.plain)
  | .error f => tokenOf f

theorem output_answer (c : Calculator) (text : String) (e : Expr) :
    (c.answer text e).value.map Answer.output = outputOf (c.valueOf e) := by
  rw [answer]
  dsimp only
  cases c.valueOf e with
  | ok d => rfl
  | error f =>
    rw [outputOf]
    dsimp only
    cases tokenOf f <;> rfl

/-- An expression that the host can show is evaluated. -/
theorem valueOf_eq_eval {c : Calculator} {e : Expr} (h : c.host.renderingFault? e = none) :
    c.valueOf e = e.eval c.arithmetic c.scale := by
  rw [valueOf, shown, h]
  rfl

theorem evaluate_of_parse {c : Calculator} {text : String} {e : Expr}
    (h : (c.parse (some text)).value = .ok (some e)) :
    (c.evaluate (some text)).value = (c.answer text e).value := by
  rw [evaluate]
  dsimp only
  rw [h]

/-- **The output for a text that is read.** -/
theorem calculate_of_parse {c : Calculator} {text : String} {e : Expr}
    (h : (c.parse (some text)).value = .ok (some e)) :
    (c.calculate (some text)).value = outputOf (c.valueOf e) := by
  rw [calculate, Log.Logged.map, evaluate_of_parse h]
  exact output_answer c text e

/-- The expression of a text that the grammar derives, within the limits. -/
theorem parseRaw_of_spells {c : Calculator} {n : Nat} {text : String} {e : Expr}
    (hlength : (text.length : Int) ≤ c.dialect.maxLength) (hdepth : (n : Int) ≤ c.dialect.maxDepth)
    (hhost : c.host.Follows n) (h : Spells c.context n (lexemes c.dialect.strict text) e) :
    (c.parseRaw (some text)).value = .ok (some e) := by
  rw [parseRaw, if_neg (by simp [isBlank_eq_false_of_spells h])]
  obtain hread | ⟨hfull, -⟩ := h.parseRaw hdepth hlength
  · exact hread
  · exact absurd hhost hfull

/-- The same, grouped by tiers. -/
theorem parse_of_spells {c : Calculator} {n : Nat} {text : String} {e : Expr}
    (hlength : (text.length : Int) ≤ c.dialect.maxLength) (hdepth : (n : Int) ≤ c.dialect.maxDepth)
    (hhost : c.host.Follows n) (hgroup : c.host.groupingFault? e = none)
    (h : Spells c.context n (lexemes c.dialect.strict text) e) :
    (c.parse (some text)).value = .ok (some e.group) :=
  parse_eq_some_iff.2 ⟨e, parseRaw_of_spells hlength hdepth hhost h, hgroup, rfl⟩

theorem parseRaw_of_calculator {c : Calculator} {text : String} {e : Expr}
    (h : (c.parseRaw (some text)).value = .ok (some e)) :
    isBlank text = false ∧ (Parser.parseRaw c.context text).value = .ok (some e) := by
  unfold parseRaw at h
  dsimp only at h
  split at h
  · cases h
  · rename_i hblank
    exact ⟨by simpa using hblank, h⟩

/-! ## Standard calculators -/

/-- What the standard calculator consists of. -/
theorem standard_spec {settings : Settings} {host : Host} {scale : Value} {strict : Bool}
    {c : Calculator} (h : standard settings host scale strict = .ok c) :
    c.arithmetic = settings.arithmetic host.elementary ∧ c.functions = .builtins c.arithmetic ∧
      c.dialect = ⟨strict, settings.maxNestingDepth, settings.maxInputLength,
        settings.maxLiteralExponent⟩ ∧ c.host = host := by
  rw [standard, create] at h
  cases hs : scaleOf (scaleOrDefault settings scale) with
  | error invalid => rw [hs] at h; cases h
  | ok n =>
    rw [hs] at h
    cases h
    exact ⟨rfl, rfl, rfl, rfl⟩

/-- The standard calculator on a given host. -/
def standardOn (host : Host) : Calculator where
  scale := 10
  dialect := ⟨false, 100, 10000, 10000⟩
  functions := .builtins (Settings.standard.arithmetic host.elementary)
  arithmetic := Settings.standard.arithmetic host.elementary
  host := host

theorem standard_eq (host : Host) :
    standard .standard host .null false = .ok (standardOn host) := rfl

/-- The standard calculator with other limits for the length and the nesting of texts. -/
def standardWithin (maxLength maxDepth : Int) : Calculator :=
  { standardOn .native with dialect := ⟨false, maxDepth, maxLength, 10000⟩ }

end Calculator

end Formula
