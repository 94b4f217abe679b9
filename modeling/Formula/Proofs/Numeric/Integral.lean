import Formula.Proofs.Numeric.Rounding

/-!
# Whole numbers within a limit

A decimal is taken as a whole number if it denotes one and that is within a limit.  Whether it does
is a question about a number, which may have so large an exponent that it can never be written out,
so there is a test before the conversion that looks at the leading digit alone.  This file says that
the test does neither too much nor too little.

* `width_eq_length` — the test counts the characters of the limit, its sign among them.
* `outgrows_iff` — it turns a number away exactly if that is not below a power of ten with two
  digits more than the limit has characters.
* `converted?_spec` — what comes through is below that power when it is converted.

`integralValue_iff` is the main result.
-/

set_option autoImplicit false

-- Powers are those of the core library.
attribute [local instance (high)] instPowNat

namespace Formula.Decimal

/-- **The width of a whole number is the length of its numeral.** -/
theorem width_eq_length (n : Int) : width n = (toString n).length := by
  rw [width, ← Digits.intText_eq_toString, Digits.intText, ← String.length_toList,
    String.toList_ofList, Digits.ofInt]
  split
  · rfl
  · rfl

/-! ## The test -/

/-- A number with leading digit beyond a place is at least the power of ten of the next place. -/
theorem lt_magnitude_iff {c : Nat} (hc : c ≠ 0) (e : Int) (k : Nat) :
    (k : Int) < magnitude c e ↔ (10 : ℚ) ^ (k + 1) ≤ c * 10 ^ e := by
  obtain ⟨hlower, hupper⟩ := magnitude_spec hc e
  have hpow : (10 : ℚ) ^ (k + 1) = 10 ^ ((k : Int) + 1) := by
    rw [← zpow_natCast, Nat.cast_add, Nat.cast_one]
  rw [hpow]
  constructor
  · intro h
    exact (zpow_le_zpow_right₀ (by norm_num) (Int.add_one_le_of_lt h)).trans hlower
  · intro h
    have := (zpow_lt_zpow_iff_right₀ (by norm_num)).1 (h.trans_lt hupper)
    omega

/-- **What is turned away by its leading digit alone.**  That is no zero, whatever its exponent is,
and no number with fewer digits. -/
theorem outgrows_iff {d : Decimal} {limit : Int} :
    d.outgrows limit ↔ d.isFinite ∧ 10 ^ ((toString limit).length + 1) ≤ |d.toRat| := by
  cases d with
  | infinity => simp [outgrows, isFinite]
  | nan => simp [outgrows, isFinite]
  | finite s c e =>
    rw [outgrows, Bool.and_eq_true, decide_eq_true_eq, decide_eq_true_eq, abs_toRat,
      ← width_eq_length]
    by_cases hc : c = 0
    · have hpos : (0 : ℚ) < 10 ^ (width limit + 1) := by positivity
      refine iff_of_false (fun h ↦ h.1 hc) fun h ↦ ?_
      rw [hc, Nat.cast_zero, zero_mul] at h
      exact absurd hpos (not_lt.2 h.2)
    · rw [lt_magnitude_iff hc]
      exact and_congr_left fun _ ↦ iff_of_true hc rfl

/-! ## The conversion -/

theorem isFinite_of_converted? {d : Decimal} {limit n : Int} (h : d.converted? limit = some n) :
    d.isFinite := by
  cases d with
  | finite => rfl
  | infinity => cases h
  | nan => cases h

/-- **What is converted is not much larger than the limit.** -/
theorem converted?_spec {d : Decimal} {limit n : Int} (h : d.converted? limit = some n) :
    d.toRat = n ∧ |n| < 10 ^ ((toString limit).length + 1) := by
  have hfinite := isFinite_of_converted? h
  obtain ⟨hn, houtgrows⟩ := (converted?_eq_some_iff hfinite).1 h
  refine ⟨hn, not_le.1 fun hlarge ↦ ?_⟩
  have hlarge' : (10 : ℚ) ^ ((toString limit).length + 1) ≤ |d.toRat| := by
    rw [hn]
    exact_mod_cast hlarge
  rw [outgrows_iff.2 ⟨hfinite, hlarge'⟩] at houtgrows
  cases houtgrows

/-- **The whole number within a limit that a decimal denotes.**  It is found exactly if the decimal
is finite, denotes a whole number and that lies within the limit, however the decimal is written
and whatever sign the limit has; otherwise there is none.  What is turned away by its leading digit
alone are the numbers not below a power of ten, which is beyond the limit, so no number within the
limit is among them; and whatever is converted is below that power. -/
theorem integralValue_iff (d : Decimal) (limit : Int) :
    (∀ n : Int, d.integralValue limit = some n ↔ d.isFinite ∧ d.toRat = n ∧ |n| ≤ limit) ∧
      (d.integralValue limit = none ↔ ¬ ∃ n : Int, d.isFinite ∧ d.toRat = n ∧ |n| ≤ limit) ∧
      (d.outgrows limit ↔ d.isFinite ∧ 10 ^ ((toString limit).length + 1) ≤ |d.toRat|) ∧
      (∀ n : Int, d.toRat = n → |n| ≤ limit → d.outgrows limit = false) ∧
      ∀ n : Int, d.converted? limit = some n →
        d.toRat = n ∧ |n| < 10 ^ ((toString limit).length + 1) := by
  have hfound : ∀ n : Int,
      d.integralValue limit = some n ↔ d.isFinite ∧ d.toRat = n ∧ |n| ≤ limit := by
    intro n
    rw [← Int.natCast_natAbs]
    constructor
    · intro h
      obtain ⟨m, hm, -⟩ := Option.bind_eq_some_iff.1 h
      have hfinite := isFinite_of_converted? hm
      exact ⟨hfinite, (integralValue_eq_some_iff hfinite).1 h⟩
    · rintro ⟨hfinite, h⟩
      exact (integralValue_eq_some_iff hfinite).2 h
  refine ⟨hfound, ?_, outgrows_iff, fun n hn hlimit ↦ ?_, fun n ↦ converted?_spec⟩
  · rw [Option.eq_none_iff_forall_ne_some, ← not_exists]
    exact not_congr (exists_congr hfound)
  · exact outgrows_eq_false hn (Int.natCast_natAbs n ▸ hlimit)

/-- At the limit 100: its own negative, written with a place and with an exponent; the power of ten
that is just converted, and the next one; and a zero at a limit that admits nothing. -/
theorem integralValue_iff_hundred :
    (finite true 1000 (-1)).integralValue 100 = some (-100) ∧
      (finite true 1 2).integralValue 100 = some (-100) ∧
      (finite false 1000 0).integralValue 100 = none ∧
      (finite false 1000 0).converted? 100 = some 1000 ∧ |(1000 : Int)| < 10 ^ 4 ∧
      (finite false 1 4).outgrows 100 ∧ (finite false 1 99999999999).integralValue 100 = none ∧
      (finite true 0 99999999999).integralValue (-1) = none := by
  have hplaced : (finite true 1000 (-1)).toRat = (-100 : Int) := by
    rw [toRat_finite]
    norm_num [signed]
  have hscaled : (finite true 1 2).toRat = (-100 : Int) := by
    rw [toRat_finite]
    norm_num [signed]
  have hthousand : (finite false 1000 0).converted? 100 = some 1000 := by decide +kernel
  have hhuge : (finite false 1 99999999999).outgrows 100 := by decide +kernel
  refine ⟨((integralValue_iff _ _).1 _).2 ⟨rfl, hplaced, by decide⟩,
    ((integralValue_iff _ _).1 _).2 ⟨rfl, hscaled, by decide⟩, ?_, hthousand,
    ((integralValue_iff _ 100).2.2.2.2 _ hthousand).2, by decide +kernel, ?_, ?_⟩
  · refine (integralValue_iff _ _).2.1.2 ?_
    rintro ⟨n, -, hn, hlimit⟩
    rw [((integralValue_iff _ 100).2.2.2.2 _ hthousand).1, Int.cast_inj] at hn
    subst hn
    exact absurd hlimit (by decide)
  · refine (integralValue_iff _ _).2.1.2 ?_
    rintro ⟨n, -, hn, hlimit⟩
    rw [(integralValue_iff _ 100).2.2.2.1 n hn hlimit] at hhuge
    cases hhuge
  · refine (integralValue_iff _ _).2.1.2 ?_
    rintro ⟨n, -, -, hlimit⟩
    exact absurd ((abs_nonneg n).trans hlimit) (by decide)

end Formula.Decimal
