import Formula.Proofs.Integer.Calculate
import Formula.Proofs.Outcome.Standard
import Formula.Proofs.Rendering.DigitCount

/-!
# Entering results

What the calculator shows for a number is a number literal, with a minus sign in front of it if the
number is negative.  So a result can be entered again, and it comes back as it is.  Nothing is in
the way of that but the length of the text: a number in plain notation has no exponent, and the
places of its digits are bounded by how many there are (`bounded_plainForm`).

* `plainForm_spec` — what is entered is the same number, without a positive exponent and without the
  sign of a zero.
* `spells_plain` — its plain notation is an expression on its own.
* `exists_output_eq_plain` — the results of a calculator with the built-in functions are the plain
  notation of finite numbers, or blank.

`calculate_plain` is the main result.
-/

set_option autoImplicit false

-- Powers are those of the core library.
attribute [local instance (high)] instPowNat

namespace Formula

open Decimal Grammar

/-! ## The number that is entered -/

/-- The plain form has no positive exponent, and a zero has no sign. -/
theorem Decimal.plainForm_spec (s : Bool) (c : Nat) (e : Int) :
    ∃ t m, (finite s c e).plainForm = finite t m (min e 0) ∧ (m = 0 → t = false) ∧
      (finite t m (min e 0)).toRat = (finite s c e).toRat := by
  have hvalue := (equal_plainForm (d := finite s c e) rfl).toRat_eq.symm
  rcases lt_or_ge e 0 with he | he
  · rw [plainForm_of_neg he] at hvalue ⊢
    rw [min_eq_left he.le]
    exact ⟨_, c, rfl, fun hc ↦ by simp [hc], hvalue⟩
  · rw [plainForm_of_nonneg he] at hvalue ⊢
    rw [min_eq_right he]
    refine ⟨_, _, rfl, fun hm ↦ ?_, hvalue⟩
    have hc : c = 0 := not_not.1 fun hc ↦ mul_pow_ne_zero_iff.2 hc hm
    simp [hc]

/-- **The digits of a number bound its exponents**: that of its leading digit and that of its last
place. -/
theorem Grammar.bounded_of_digitCount {dialect : Dialect} (hstrict : dialect.strict = false)
    (hheld : dialect.maxLiteralExponent ≤ largestExponent) {s : Bool} {c : Nat} {e : Int}
    (he : e ≤ 0) (hcount : ((finite s c e).digitCount : Int) ≤ dialect.maxLiteralExponent) :
    Bounded dialect (finite s c e) := by
  have hplaces := places_lt_digitCount s c e
  have hwhole : e.toNat = 0 := by omega
  have hdigits : Digits.count c ≤ (finite s c e).digitCount := by
    rw [digitCount_finite, hwhole, Nat.pow_zero, Nat.mul_one]
    exact Digits.count_le_count_div c _
  have hpos := Digits.count_pos c
  have hmagnitude : (magnitude c e).natAbs ≤ dialect.maxLiteralExponent := by
    rw [magnitude]
    omega
  refine ⟨fun hs ↦ absurd hs (by simp [hstrict]), hmagnitude, by omega, ?_⟩
  rw [fits, decide_eq_true_eq]
  omega

namespace Calculator

variable {c : Calculator}

/-- A number whose plain notation is within the limit for texts is within those for literals. -/
theorem HasRoom.bounded_plainForm (hroom : c.HasRoom) (hstrict : c.dialect.strict = false)
    {s : Bool} {k : Nat} {e : Int}
    (hlength : ((finite s k e).plain.length : Int) ≤ c.dialect.maxLength) :
    Bounded c.dialect (finite s k e).plainForm := by
  obtain ⟨t, m, hform, -, -⟩ := plainForm_spec s k e
  have hcount := digitCount_le_length (finite s k e).plainForm
  have hroom' := hroom.length_le
  rw [plain_plainForm] at hcount
  rw [hform] at hcount ⊢
  exact bounded_of_digitCount hstrict hroom.exponent_le (min_le_right e 0) (by omega)

/-! ## The text is an expression -/

/-- **The plain notation of a number is an expression on its own.** -/
theorem HasRoom.spells_plain (hroom : c.HasRoom) (hstrict : c.dialect.strict = false) {s : Bool}
    {k : Nat} {e : Int} (hlength : ((finite s k e).plain.length : Int) ≤ c.dialect.maxLength) :
    Spells c.context 0 (lexemes c.dialect.strict (String.ofList (finite s k e).plain))
      (.chain false (.const (finite s k e).plainForm) []) := by
  have hbounded : Bounded c.context.dialect _ := hroom.bounded_plainForm hstrict hlength
  have hplain := plain_plainForm (finite s k e)
  have hform := plainForm_plainForm (finite s k e)
  obtain ⟨t, m, hd, -, -⟩ := plainForm_spec s k e
  rw [hd] at hbounded hplain hform ⊢
  obtain ⟨ls, hfragment, hoperand⟩ := exists_operand_plain hbounded
  rw [hplain] at hfragment
  rw [hform] at hoperand
  have hlexemes : lexemes c.dialect.strict (String.ofList (finite s k e).plain) = ls :=
    hfragment.lexemes_eq
  rw [hlexemes]
  exact ⟨_, _, .single (hoperand 0), rfl⟩

theorem length_ofList_plain (d : Decimal) :
    (String.ofList d.plain).length = d.plain.length := by
  rw [← String.length_toList, String.toList_ofList]

/-- It is read as the number in plain form, and calculated as it is. -/
theorem HasRoom.parse_plain (hroom : c.HasRoom) (hstrict : c.dialect.strict = false)
    (hdepth : 0 ≤ c.dialect.maxDepth) {s : Bool} {k : Nat} {e : Int}
    (hlength : ((finite s k e).plain.length : Int) ≤ c.dialect.maxLength) :
    (c.parse (some (String.ofList (finite s k e).plain))).value =
        .ok (some (.chain false (.const (finite s k e).plainForm) [])) ∧
      (c.calculate (some (String.ofList (finite s k e).plain))).value =
        .ok (String.ofList (finite s k e).plain) := by
  have hread := parseRaw_of_spells (by rwa [length_ofList_plain]) hdepth Host.follows_zero
    (hroom.spells_plain hstrict hlength)
  -- there is always room for a number alone
  have hparse : (c.parse (some (String.ofList (finite s k e).plain))).value =
      .ok (some (.chain false (.const (finite s k e).plainForm) [])) :=
    parse_eq_some_iff.2 ⟨_, hread, c.host.groupingFault?_number _, rfl⟩
  refine ⟨hparse, ?_⟩
  rw [calculate_of_parse hparse, valueOf_eq_eval (c.host.renderingFault?_number _)]
  show Except.ok (String.ofList (finite s k e).plainForm.plain) = _
  rw [plain_plainForm]

/-! ## Results -/

/-- An answer about an expression is positive only if the expression has a value. -/
theorem exists_eval_of_answer {text : String} {e : Expr} {a : Answer}
    (h : (c.answer text e).value = .ok a) (hok : a.ok) :
    ∃ d, e.eval c.arithmetic c.scale = .ok d ∧ a.output = String.ofList d.plain := by
  rw [answer] at h
  dsimp only at h
  cases hvalue : c.valueOf e with
  | ok d =>
    rw [hvalue] at h
    obtain rfl := Except.ok.inj h
    refine ⟨d, ?_, rfl⟩
    cases hx : c.host.renderingFault? e with
    | none => rw [← valueOf_eq_eval hx, hvalue]
    | some x =>
      rw [valueOf, shown, hx] at hvalue
      cases hvalue
  | error f =>
    rw [hvalue] at h
    dsimp only at h
    cases htoken : tokenOf f with
    | error escape => rw [htoken] at h; cases h
    | ok token =>
      rw [htoken] at h
      obtain rfl := Except.ok.inj h
      cases hok

/-- **A result is the plain notation of a finite number, or blank.** -/
theorem exists_output_eq_plain {b : Calculator} (hfunctions : b.functions = .builtins b.arithmetic)
    {text : Option String} {a : Answer} (ha : (b.evaluate text).value = .ok a) (hok : a.ok) :
    a.output = "" ∨ ∃ s k e, a.output = String.ofList (finite s k e).plain := by
  have hcounted : b.functions.Counted := hfunctions ▸ Registry.counted_builtins _
  obtain ⟨-, hvalue⟩ | ⟨s, e, -, hparse, hvalue⟩ | ⟨s, e, -, -, hvalue⟩ | ⟨x, -, hvalue⟩ :=
    evaluate_cases (parse_ne_uncounted hcounted text)
  · obtain rfl := Except.ok.inj (hvalue.symm.trans ha)
    exact .inl Answer.output_blank
  · obtain ⟨e', hsimilar⟩ := exists_similar_of_builtins hfunctions (.inl hparse)
    obtain ⟨d, hd, houtput⟩ := exists_eval_of_answer (hvalue.symm.trans ha) hok
    have hfinite : d.isFinite := by
      obtain ⟨-, hends⟩ | ⟨-, hrefused⟩ := hsimilar.eval_cases b.scale
      · rw [hd] at hends
        cases hends with
        | ok hfinite => exact hfinite
      · rw [hd] at hrefused
        cases hrefused
    match d, hfinite with
    | finite s k e, _ => exact .inr ⟨s, k, e, houtput⟩
  · obtain rfl := Except.ok.inj (hvalue.symm.trans ha)
    cases hok
  · cases hvalue.symm.trans ha

theorem calculate_blank (c : Calculator) : (c.calculate (some "")).value = .ok "" := rfl

/-- **Results can be entered again.**  Let the calculator not be strict, let its limits leave room
for every number that a text can hold, and let some nesting or none at all be admitted.  Then every
finite decimal whose plain notation is not too long is read from it, as the decimal of the same
value whose exponent is the given one or zero, whichever is smaller, and which has no sign if it is
zero; and the output for its plain notation is the plain notation, whatever the scale is.  So the
result of any calculator with the built-in functions and no others, of whatever scale, machine,
limits and dialect, is its own output as long as it is not too long. -/
theorem calculate_plain (hroom : c.HasRoom) (hstrict : c.dialect.strict = false)
    (hdepth : 0 ≤ c.dialect.maxDepth) :
    (∀ s k e, ((finite s k e).plain.length : Int) ≤ c.dialect.maxLength →
      ∃ t m, (c.parse (some (String.ofList (finite s k e).plain))).value =
          .ok (some (.chain false (.const (finite t m (min e 0))) [])) ∧
        (finite t m (min e 0)).toRat = (finite s k e).toRat ∧ (m = 0 → t = false) ∧
        (c.calculate (some (String.ofList (finite s k e).plain))).value =
          .ok (String.ofList (finite s k e).plain)) ∧
      ∀ (b : Calculator) (text : Option String) (a : Answer),
        b.functions = .builtins b.arithmetic → (b.evaluate text).value = .ok a → a.ok →
        (a.output.length : Int) ≤ c.dialect.maxLength →
        (c.calculate (some a.output)).value = .ok a.output := by
  refine ⟨fun s k e hlength ↦ ?_, fun b text a hfunctions ha hok hlength ↦ ?_⟩
  · obtain ⟨t, m, hform, hsign, hvalue⟩ := plainForm_spec s k e
    obtain ⟨hparse, hcalculate⟩ := hroom.parse_plain hstrict hdepth hlength
    exact ⟨t, m, hform ▸ hparse, hvalue, hsign, hcalculate⟩
  · obtain hblank | ⟨s, k, e, hplain⟩ := exists_output_eq_plain hfunctions ha hok
    · rw [hblank]
      exact calculate_blank c
    · rw [hplain, length_ofList_plain] at hlength
      rw [hplain]
      exact (hroom.parse_plain hstrict hdepth hlength).2

/-- A zero with a sign, a positive exponent, and the result of `1e2 - 3 * -0` under the standard
limits. -/
theorem calculate_plain_zero :
    (standardOn .native).HasRoom ∧ (standardOn .native).dialect.strict = false ∧
      0 ≤ (standardOn .native).dialect.maxDepth ∧
      (finite true 0 (-2)).plain = ['0', '.', '0', '0'] ∧
      ((standardOn .native).parse (some "0.00")).value =
        .ok (some (.chain false (.const (finite false 0 (-2))) [])) ∧
      ((standardOn .native).calculate (some "0.00")).value = .ok "0.00" ∧
      ((standardOn .native).calculate (some "-12000")).value = .ok "-12000" ∧
      ∃ a, ((standardOn .native).evaluate (some "1e2 - 3 * -0")).value = .ok a ∧ a.ok ∧
        ((standardOn .native).calculate (some a.output)).value = .ok a.output := by
  have hroom := hasRoom_of_standard (standard_eq .native)
  obtain ⟨hnumber, hresult⟩ := calculate_plain hroom rfl (by decide)
  have hzero : (finite true 0 (-2)).plain = ['0', '.', '0', '0'] := by decide +kernel
  have hthousands : (finite true 12 3).plain = ['-', '1', '2', '0', '0', '0'] := by decide +kernel
  obtain ⟨t, m, hparse', hvalue, hsign, hcalculate⟩ := hnumber true 0 (-2) (by rw [hzero]; decide)
  obtain ⟨-, -, -, -, -, hcalculate'⟩ := hnumber true 12 3 (by rw [hthousands]; decide)
  obtain rfl : m = 0 := toRat_eq_zero_iff.1 (hvalue.trans (toRat_eq_zero_iff.2 rfl))
  obtain rfl := hsign rfl
  rw [hzero] at hparse' hcalculate
  rw [hthousands] at hcalculate'
  have hfits := fits_standardOn_native "1e2 - 3 * -0"
  have hparse := hfits.parse_of_parseRaw
    (hfits.parseRaw_of_spells (by decide) (by decide) spells_scaledDifference)
  have hhundred : ∃ a, ((standardOn .native).answer "1e2 - 3 * -0" scaledDifference.group).value =
      .ok a ∧ a.ok ∧ a.output = "100" := ⟨_, rfl, rfl, by decide +kernel⟩
  obtain ⟨a, hanswer, hok, houtput⟩ := hhundred
  have hvalue := (evaluate_of_parse hparse).trans hanswer
  refine ⟨hroom, rfl, by decide, hzero, hparse', hcalculate, hcalculate', a, hvalue, hok,
    hresult _ _ _ rfl hvalue hok ?_⟩
  rw [houtput]
  decide

end Calculator

end Formula
