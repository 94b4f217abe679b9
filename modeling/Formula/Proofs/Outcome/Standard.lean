import Formula.Proofs.Answer
import Formula.Proofs.Outcome
import Formula.Proofs.Rendering.Calculate

/-!
# Outcomes of a standard calculator

A standard calculator has the built-in functions and no others, so what evaluations end with is
known of every expression that it reads (`exists_similar`).

* `documented_eval_iff` — the outcome is documented exactly if no sine beyond the range of
  floating-point numbers is reached.
* `not_documented_largeSine` — such a sine: what comes out is the refusal of the machine.
-/

set_option autoImplicit false

namespace Formula

open Formula.Expr Grammar

namespace Calculator

/-! ## Outcomes -/

/-- What a calculator with the built-in functions and no others reads, it reads as a call of nothing
but these. -/
theorem exists_similar_of_builtins {c : Calculator}
    (hfunctions : c.functions = .builtins c.arithmetic) {text : Option String} {e : Expr}
    (hread : (c.parse text).value = .ok (some e) ∨ (c.parseRaw text).value = .ok (some e)) :
    ∃ e', Similar c.arithmetic e e' := by
  have hwell : c.context.functions.WellFormed := by
    rw [context, hfunctions]
    exact Registry.wellFormed_builtins _
  have hraw : ∀ {raw : Expr}, (c.parseRaw text).value = .ok (some raw) →
      Similar c.arithmetic raw raw.plainForm := by
    intro raw h
    obtain ⟨s, -, hparse⟩ := (parseRaw_some_iff_reading hwell).1 h
    exact (writable_of_parseRaw hwell hparse).1.similar hfunctions
  rcases hread with h | h
  · obtain ⟨raw, hread, -, rfl⟩ := parse_eq_some_iff.1 h
    exact ⟨_, (hraw hread).group⟩
  · exact ⟨_, hraw h⟩

/-- No failure of a built-in function is one that cannot be shown. -/
theorem valueOf_ne_unshowable {c : Calculator} (hfunctions : c.functions = .builtins c.arithmetic)
    {text : Option String} {e : Expr} (hparse : (c.parse text).value = .ok (some e))
    (kind : Failure.Kind) (name : String) : c.valueOf e ≠ .error (.unshowable kind name) := by
  intro hvalue
  obtain ⟨-, heval⟩ := valueOf_eq_unshowable_iff.1 hvalue
  obtain ⟨e', hsimilar⟩ := exists_similar_of_builtins hfunctions (.inl hparse)
  obtain ⟨-, hends⟩ | ⟨-, hsine⟩ := hsimilar.eval_cases c.scale
  · rw [heval] at hends
    cases hends with
    | error hf => cases hf
  · cases heval.symm.trans hsine

/-- **A text is left without an answer exactly if there is no room to group its expression**, if all
functions are built-in ones. -/
theorem evaluate_eq_error_iff {c : Calculator} (hfunctions : c.functions = .builtins c.arithmetic)
    {text : Option String} {escape : Escape} : (c.evaluate text).value = .error escape ↔
      ∃ x, (c.parse text).value = .error (.exhausted x) ∧ escape = .exhausted x := by
  have hcounted : c.functions.Counted := hfunctions ▸ Registry.counted_builtins _
  obtain ⟨hparse, hvalue⟩ | ⟨s, e, rfl, hparse, hvalue⟩ | ⟨s, e, -, hparse, hvalue⟩ |
      ⟨x, hparse, hvalue⟩ := evaluate_cases (parse_ne_uncounted hcounted text)
  · rw [hvalue, hparse]
    exact iff_of_false nofun (by simp)
  · rw [hvalue, hparse]
    refine iff_of_false (fun h ↦ ?_) (by simp)
    obtain ⟨kind, name, hfailure, -⟩ := answer_eq_error_iff.1 h
    exact valueOf_ne_unshowable hfunctions hparse kind name hfailure
  · rw [hvalue, hparse]
    exact iff_of_false nofun (by simp)
  · rw [hvalue, hparse]
    simp [eq_comm]

section

variable {settings : Settings} {host : Host} {scale : Value} {strict : Bool}
  {c : Calculator}

/-- So does a standard calculator. -/
theorem exists_similar (hc : standard settings host scale strict = .ok c)
    {text : Option String} {e : Expr}
    (hread : (c.parse text).value = .ok (some e) ∨ (c.parseRaw text).value = .ok (some e)) :
    ∃ e', Similar c.arithmetic e e' :=
  exists_similar_of_builtins (standard_spec hc).2.1 hread

/-- **What an evaluation ends with.**  Let `e` be an expression that a standard calculator reads,
grouped by tiers or as it is written, and let it be evaluated at any scale.  If all sines that are
taken are those of numbers within the range of floating-point numbers, then the outcome is a finite
number, or a failure of the calculator with one of the documented codes.  Otherwise, and only then,
it is not: the refusal of the machine to take the sine comes out as it is. -/
theorem documented_eval_iff (hc : standard settings host scale strict = .ok c)
    {text : Option String} {e : Expr}
    (hread : (c.parse text).value = .ok (some e) ∨ (c.parseRaw text).value = .ok (some e))
    (n : Int) :
    (Documented (e.eval c.arithmetic n) ↔ InRange c.arithmetic e n) ∧
      (¬ Documented (e.eval c.arithmetic n) →
        e.eval c.arithmetic n = .error .sineOfInfinity) := by
  obtain ⟨e', hsimilar⟩ := exists_similar hc hread
  exact hsimilar.documented_iff n

end

/-! ## A sine that is out of range -/

/-- The angle `1e400` is beyond the largest floating-point number. -/
def largeAngle : Decimal := .finite false 1 400

/-- `SIN(1e400)`, grouped by tiers or as it is written. -/
def largeSine : Expr :=
  .chain false (.call "sin" (.sine (standardOn .native).arithmetic) [.const largeAngle]) []

/-- `IF(0, SIN(1e400), 1 / 0)`, grouped by tiers or as it is written. -/
def avoidedSine : Expr :=
  .chain false
    (.call "if" .choose
      [.const (.finite false 0 0),
        .call "sin" (.sine (standardOn .native).arithmetic) [.const largeAngle],
        .chain false (.const (.finite false 1 0)) [(.divide, .const (.finite false 0 0))]]) []

/-- The lexemes of `SIN(1e400)` are an operand. -/
theorem operand_largeSine (n : Nat) :
    Operand (standardOn .native).context (n + 1)
      ([] ++ Lexeme.name ['S', 'I', 'N'] :: Lexeme.symbol '(' ::
        [Lexeme.number ['1', 'e', '4', '0', '0']] ++ [Lexeme.symbol ')'])
      (.call "sin" (.sine (standardOn .native).arithmetic) [.const largeAngle]) := by
  have hsine : (standardOn .native).context.functions.lookup? (String.ofList ['S', 'I', 'N']) =
      some ⟨"sin", ⟨1, .whole⟩, .sine (standardOn .native).arithmetic⟩ :=
    List.find?_cons_of_pos (by decide +kernel)
  have hangle : Literal (standardOn .native).context.dialect (['1'] ++ ['e', '4', '0', '0'])
      largeAngle :=
    .intro (.whole (by simp) (by simp)) (.some (.inl rfl) (by simp) (by simp)) rfl rfl
      (by decide) (by decide +kernel) (by decide) (by decide +kernel)
  exact .call (.nil _) rfl hsine rfl (.first (.single (.number (.nil _) hangle)))

theorem parse_largeSine :
    ((standardOn .native).parse (some "SIN(1e400)")).value = .ok (some largeSine) := by
  have hlexemes : lexemes false "SIN(1e400)" =
      [] ++ Lexeme.name ['S', 'I', 'N'] :: Lexeme.symbol '(' ::
        [Lexeme.number ['1', 'e', '4', '0', '0']] ++ [Lexeme.symbol ')'] := by
    decide +kernel
  have hspells : Spells (standardOn .native).context 1 (lexemes false "SIN(1e400)") largeSine := by
    rw [hlexemes]
    exact ⟨_, _, .single (operand_largeSine 0), rfl⟩
  have hfits := fits_standardOn_native "SIN(1e400)"
  exact hfits.parse_of_parseRaw (hfits.parseRaw_of_spells (by decide) (by decide) hspells)

theorem parse_avoidedSine :
    ((standardOn .native).parse (some "IF(0, SIN(1e400), 1 / 0)")).value =
      .ok (some avoidedSine) := by
  have hdigit : ∀ {n : Nat} (_ : n < 10), Operand (standardOn .native).context 1
      [.number [Nat.digitChar n]] (signedNumber false (.finite false n 0)) :=
    Operand.digit (by decide) 1
  have hlexemes : lexemes false "IF(0, SIN(1e400), 1 / 0)" =
      [] ++ Lexeme.name ['I', 'F'] :: Lexeme.symbol '(' ::
        ([Lexeme.number ['0']] ++
          Lexeme.symbol ',' ::
            ([] ++ Lexeme.name ['S', 'I', 'N'] :: Lexeme.symbol '(' ::
              [Lexeme.number ['1', 'e', '4', '0', '0']] ++ [Lexeme.symbol ')']) ++
          Lexeme.symbol ',' ::
            ([Lexeme.number ['1']] ++ Lexeme.symbol '/' :: [Lexeme.number ['0']])) ++
        [Lexeme.symbol ')'] := by
    decide +kernel
  have hif : (standardOn .native).context.functions.lookup? (String.ofList ['I', 'F']) =
      some ⟨"if", ⟨3, .whole⟩, .choose⟩ :=
    (List.find?_cons_of_neg (by decide +kernel)).trans (List.find?_cons_of_pos (by decide +kernel))
  have hspells : Spells (standardOn .native).context 2
      (lexemes false "IF(0, SIN(1e400), 1 / 0)") avoidedSine := by
    rw [hlexemes]
    refine ⟨_, _, .single (.call (.nil _) rfl hif rfl ?_), rfl⟩
    have hcondition := Arguments.first (.single (hdigit (show 0 < 10 by decide)))
    have hsine := hcondition.next (.single (operand_largeSine 0))
    exact hsine.next (.link .divide (.single (hdigit (show 1 < 10 by decide)))
      (hdigit (show 0 < 10 by decide)))
  have hfits := fits_standardOn_native "IF(0, SIN(1e400), 1 / 0)"
  exact hfits.parse_of_parseRaw (hfits.parseRaw_of_spells (by decide) (by decide) hspells)

/-- The branch that is evaluated has no sine. -/
theorem documented_eval_iff_avoidedSine :
    standard .standard .native .null false = .ok (standardOn .native) ∧
      ((standardOn .native).parse (some "IF(0, SIN(1e400), 1 / 0)")).value =
        .ok (some avoidedSine) ∧
      avoidedSine.eval (standardOn .native).arithmetic 10 = .error .divisionByZero ∧
      InRange (standardOn .native).arithmetic avoidedSine 10 := by
  have heval : avoidedSine.eval (standardOn .native).arithmetic 10 = .error .divisionByZero := rfl
  refine ⟨standard_eq _, parse_avoidedSine, heval, ?_⟩
  refine (documented_eval_iff (standard_eq .native) (.inl parse_avoidedSine) 10).1.1 ?_
  rw [heval]
  exact .inr ⟨_, rfl, rfl, "DIV0", by simp [Failure.documentedCodes], rfl⟩

/-- Without the condition on sines this is not so: the refusal of the machine is neither a number
nor a failure of the calculator. -/
theorem not_documented_largeSine :
    standard .standard .native .null false = .ok (standardOn .native) ∧
      ((standardOn .native).parse (some "SIN(1e400)")).value = .ok (some largeSine) ∧
      largeSine.eval (standardOn .native).arithmetic 10 = .error .sineOfInfinity ∧
      ¬ Documented (largeSine.eval (standardOn .native).arithmetic 10) := by
  have heval : largeSine.eval (standardOn .native).arithmetic 10 = .error .sineOfInfinity :=
    TakesSine.eval_eq ⟨"sin", _, 10, .head .self, rfl⟩ (by decide +kernel)
  refine ⟨standard_eq _, parse_largeSine, heval, ?_⟩
  rw [heval]
  exact not_documented_sineOfInfinity

end Calculator

end Formula
