import Formula.Proofs.Numeric.Rounding

/-!
# Quotients

A quotient is rounded once, from its exact value: it is the nearest number with at most `scale`
digits after the point, and the further one from zero if there are two.  It is written without
trailing zeros, so there is only one way to write it, and how the operands are written is not to be
seen in it.

* `IsNearest m x` — the whole number `m` is nearest to `x`, ties going away from zero.
* `Stripped d` — the decimal `d` has no trailing zero in its coefficient.  Such decimals are equal
  as soon as they denote the same number (`Stripped.eq_of_toRat_eq`).
* `RoundedTo x places d` — the decimal `d` is `x` rounded to a number of places, and stripped.
* `divide_roundedTo` — the main result.
-/

set_option autoImplicit false

-- Powers are those of the core library.
attribute [local instance (high)] instPowNat

namespace Formula.Decimal

/-! ## The nearest whole number -/

/-- The whole number is nearest to the number; of two nearest ones it is the one further from
zero. -/
structure IsNearest (m : Int) (x : ℚ) : Prop where
  nearest : ∀ k : Int, |x - m| ≤ |x - k|
  away : ∀ k : Int, |x - k| = |x - m| → |k| ≤ |m|

theorem IsNearest.eq_zero {m : Int} (h : IsNearest m 0) : m = 0 := by
  have hzero := h.nearest 0
  rw [Int.cast_zero, sub_zero, abs_zero, zero_sub, abs_neg] at hzero
  exact_mod_cast abs_nonpos_iff.1 hzero

/-- There is only one such number. -/
theorem IsNearest.unique {m k : Int} {x : ℚ} (hm : IsNearest m x) (hk : IsNearest k x) : m = k := by
  have hdistance : |x - m| = |x - k| := le_antisymm (hm.nearest k) (hk.nearest m)
  have habs : |m| = |k| := le_antisymm (hk.away m hdistance) (hm.away k hdistance.symm)
  rcases abs_eq_abs.1 hdistance with h | h
  · exact_mod_cast sub_right_injective h
  · rcases abs_eq_abs.1 habs with rfl | rfl
    · rfl
    · -- opposite numbers are equally far from zero alone
      push_cast at h
      obtain rfl : x = 0 := by linarith
      rw [hm.eq_zero, hk.eq_zero]

theorem IsNearest.neg {m : Int} {x : ℚ} (h : IsNearest m x) : IsNearest (-m) (-x) := by
  have hflip : ∀ k : Int, |(-x) - k| = |x - (-k : Int)| := fun k ↦ by
    rw [← abs_neg]
    push_cast
    ring_nf
  constructor
  · intro k
    rw [hflip, hflip, neg_neg]
    exact h.nearest (-k)
  · intro k hk
    rw [hflip, hflip, neg_neg] at hk
    rw [abs_neg, ← abs_neg k]
    exact h.away (-k) hk

/-- Half a unit more than a number that is not negative, and then down to the next whole number. -/
theorem isNearest_floor {x : ℚ} (hx : 0 ≤ x) : IsNearest ⌊x + 1 / 2⌋₊ x := by
  have hlower : (⌊x + 1 / 2⌋₊ : ℚ) ≤ x + 1 / 2 := Nat.floor_le (by linarith)
  have hupper : x + 1 / 2 < ⌊x + 1 / 2⌋₊ + 1 := Nat.lt_floor_add_one _
  generalize ⌊x + 1 / 2⌋₊ = n at hlower hupper
  have hhalf : |x - (n : Int)| ≤ 1 / 2 := by
    rw [abs_le, Int.cast_natCast]
    constructor <;> linarith
  -- a smaller whole number is at least half a unit away, and a larger one more than that
  have hbelow : ∀ k : Int, k < n → 1 / 2 ≤ |x - k| := fun k hk ↦ by
    have hstep : (k : ℚ) + 1 ≤ n := by exact_mod_cast hk
    exact le_abs.2 (.inl (by linarith))
  have habove : ∀ k : Int, n < k → 1 / 2 < |x - k| := fun k hk ↦ by
    have hstep : (n : ℚ) + 1 ≤ k := by exact_mod_cast hk
    exact lt_abs.2 (.inr (by linarith))
  constructor
  · intro k
    rcases lt_trichotomy k n with hk | rfl | hk
    · exact hhalf.trans (hbelow k hk)
    · exact le_rfl
    · exact hhalf.trans (habove k hk).le
  · intro k hk
    rcases lt_trichotomy k n with hlt | rfl | hlt
    · have hnear : x - k ≤ 1 / 2 := (le_abs_self _).trans (hk.trans_le hhalf)
      have hnonneg : 0 ≤ k := by
        have hneg : (-1 : ℚ) < k := by linarith
        exact_mod_cast hneg
      rw [abs_of_nonneg hnonneg, Nat.abs_cast]
      exact hlt.le
    · exact le_rfl
    · exact absurd (hk.trans_le hhalf) (not_le.2 (habove k hlt))

/-- **Rounding to a number of places goes to the nearest multiple of the unit.** -/
theorem exists_isNearest_roundHalf (x : ℚ) (places : Int) :
    ∃ m : Int, IsNearest m (x * 10 ^ places) ∧ roundHalf x places = m * 10 ^ (-places) := by
  have hfloor := isNearest_floor (mul_nonneg (abs_nonneg x) (ten_zpow_pos places).le)
  rw [roundHalf]
  generalize ⌊|x| * 10 ^ places + 1 / 2⌋₊ = n at hfloor
  split
  · rename_i hx
    rw [abs_of_neg hx, neg_mul] at hfloor
    refine ⟨-n, ?_, by push_cast; ring⟩
    rw [← neg_neg (x * 10 ^ places)]
    exact hfloor.neg
  · rename_i hx
    rw [abs_of_nonneg (not_lt.1 hx)] at hfloor
    exact ⟨n, hfloor, by push_cast; ring⟩

/-! ## Decimals without trailing zeros -/

/-- The coefficient has no trailing zero; a zero has neither a sign nor an exponent. -/
inductive Stripped : Decimal → Prop
  | zero : Stripped (finite false 0 0)
  | digits {s : Bool} {c : Nat} {e : Int} : c % 10 ≠ 0 → Stripped (finite s c e)

/-- Of two coefficients for the same number, the one with the smaller exponent has more zeros at
its end. -/
theorem coefficient_eq_mul_pow {c c' : Nat} {e e' : Int} (h : (c * 10 ^ e : ℚ) = c' * 10 ^ e')
    (he : e ≤ e') : c = c' * 10 ^ (e' - e).toNat := by
  have hshift : e + ((e' - e).toNat : Int) = e' := by omega
  have hscaled : (c * 10 ^ e : ℚ) = (c' * (10 ^ (e' - e).toNat : Nat) : ℚ) * 10 ^ e := by
    rw [cast_mul_ten_pow, hshift, h]
  exact_mod_cast mul_right_cancel₀ (ten_zpow_pos e).ne' hscaled

/-- So stripped decimals for the same number have the same exponent. -/
theorem exponent_le_of_mod_ne_zero {c c' : Nat} {e e' : Int} (hc : c % 10 ≠ 0)
    (h : (c * 10 ^ e : ℚ) = c' * 10 ^ e') : e' ≤ e := by
  by_contra hlt
  have hcoefficient := coefficient_eq_mul_pow h (not_le.1 hlt).le
  obtain ⟨k, hk⟩ : ∃ k, (e' - e).toNat = k + 1 := ⟨(e' - e).toNat - 1, by omega⟩
  rw [hk, Nat.pow_succ, ← Nat.mul_assoc] at hcoefficient
  exact hc (by rw [hcoefficient, Nat.mul_mod_left])

/-- **There is only one way to write a number without trailing zeros.** -/
theorem Stripped.eq_of_toRat_eq {d d' : Decimal} (h : Stripped d) (h' : Stripped d')
    (hvalue : d.toRat = d'.toRat) : d = d' := by
  have hne : ∀ {s : Bool} {c : Nat} {e : Int}, c % 10 ≠ 0 → (finite s c e).toRat ≠ 0 := by
    intro s c e hc hzero
    rw [toRat_eq_zero_iff.1 hzero] at hc
    exact hc rfl
  have hzero : (finite false 0 0).toRat = 0 := toRat_eq_zero_iff.2 rfl
  cases h with
  | zero =>
    cases h' with
    | zero => rfl
    | digits hc' => exact absurd (hvalue.symm.trans hzero) (hne hc')
  | @digits s c e hc =>
    cases h' with
    | zero => exact absurd (hvalue.trans hzero) (hne hc)
    | @digits s' c' e' hc' =>
      have habs : (c * 10 ^ e : ℚ) = c' * 10 ^ e' := by
        rw [← abs_toRat s c e, hvalue, abs_toRat]
      obtain rfl : e = e' := le_antisymm (exponent_le_of_mod_ne_zero hc' habs.symm)
        (exponent_le_of_mod_ne_zero hc habs)
      have hcoefficient := coefficient_eq_mul_pow habs le_rfl
      rw [sub_self, Int.toNat_zero, Nat.pow_zero, Nat.mul_one] at hcoefficient
      have hsign : s = s' :=
        calc s = decide ((finite s c e).toRat < 0) := negative_eq_of_ne_zero (hne hc)
          _ = decide ((finite s' c' e).toRat < 0) := by rw [hvalue]
          _ = s' := (negative_eq_of_ne_zero (hne hc')).symm
      rw [hsign, hcoefficient]

/-- What is left after the zeros are taken off is stripped, if a zero has no sign. -/
theorem stripped_stripZeros {s : Bool} {c : Nat} {e : Int} (h : c = 0 → s = false) :
    Stripped (finite s c e).stripZeros := by
  rw [stripZeros]
  split
  · rename_i hc
    rw [h hc]
    exact .zero
  · rename_i hc
    exact .digits (stripCoefficient_mod e (Nat.pos_of_ne_zero hc)).1

/-! ## Rounded quotients -/

/-- The decimal is the number, rounded to a number of places and written without trailing zeros. -/
structure RoundedTo (x : ℚ) (places : Int) (d : Decimal) : Prop where
  /-- It is the nearest multiple of the unit of the last place. -/
  nearest : ∃ m : Int, IsNearest m (x * 10 ^ places) ∧ d.toRat = m * 10 ^ (-places)
  stripped : d.Stripped

theorem RoundedTo.unique {x : ℚ} {places : Int} {d d' : Decimal} (h : RoundedTo x places d)
    (h' : RoundedTo x places d') : d = d' := by
  obtain ⟨⟨m, hm, hvalue⟩, hstripped⟩ := h
  obtain ⟨⟨m', hm', hvalue'⟩, hstripped'⟩ := h'
  exact hstripped.eq_of_toRat_eq hstripped' (by rw [hvalue, hvalue', hm.unique hm'])

/-- The quotient is written without trailing zeros. -/
theorem stripped_of_divide {a b d : Decimal} {scale : Int} (h : a.divide b scale = .ok d) :
    d.Stripped := by
  rw [divide.eq_def] at h
  split at h
  · cases h
  · split at h
    · cases h
    · cases h
    · cases h
    · cases h
    · cases h
      exact stripped_stripZeros fun hzero ↦ by rw [hzero, bne_self_eq_false, Bool.and_false]

/-- **The quotient of two numbers is rounded correctly.** -/
theorem exists_divide_roundedTo {a b : Decimal} (ha : a.isFinite) (hb : b.isFinite)
    (h : b.toRat ≠ 0) (scale : Int) :
    ∃ d, a.divide b scale = .ok d ∧ d.RoundedTo (a.toRat / b.toRat) scale := by
  obtain ⟨d, hd, -, hvalue⟩ := divide_spec ha hb h scale
  obtain ⟨m, hm, hround⟩ := exists_isNearest_roundHalf (a.toRat / b.toRat) scale
  exact ⟨d, hd, ⟨m, hm, hvalue.trans hround⟩, stripped_of_divide hd⟩

/-- **Quotients are rounded correctly.**  For finite operands and every scale: the quotient by
another number than zero is the nearest multiple of the unit of the last place, ties going away from
zero, without trailing zeros; a division by zero, however the zero is written, has no result; and it
is only the numbers that matter, not how the operands are written. -/
theorem divide_roundedTo {a b : Decimal} (ha : a.isFinite) (hb : b.isFinite) (scale : Int) :
    (b.toRat ≠ 0 → ∃ d, a.divide b scale = .ok d ∧ d.RoundedTo (a.toRat / b.toRat) scale) ∧
      (b.toRat = 0 → ∃ f, a.divide b scale = .error f ∧ f.message = .ok "#DIV0") ∧
      ∀ a' b' : Decimal, a.Equal a' → b.Equal b' → a'.divide b' scale = a.divide b scale := by
  refine ⟨fun h ↦ exists_divide_roundedTo ha hb h scale,
    fun h ↦ ⟨_, divide_zero ((isZero_iff hb).2 h) scale, rfl⟩, fun a' b' ha' hb' ↦ ?_⟩
  by_cases h : b.toRat = 0
  · have hzero := (isZero_iff hb).2 h
    rw [divide_zero hzero, divide_zero (hb'.isZero_eq ▸ hzero)]
  · obtain ⟨d, hd, hrounded⟩ := exists_divide_roundedTo ha hb h scale
    obtain ⟨d', hd', hrounded'⟩ :=
      exists_divide_roundedTo ha'.right hb'.right (hb'.toRat_eq ▸ h) scale
    rw [← ha'.toRat_eq, ← hb'.toRat_eq] at hrounded'
    rw [hd, hd', hrounded.unique hrounded']

/-- A tie between two negative numbers goes to the smaller one, however the operands are written. -/
theorem divide_roundedTo_negativeTie :
    (finite true 125 (-3)).isFinite ∧ (finite false 100 (-2)).isFinite ∧
      (finite false 100 (-2)).toRat ≠ 0 ∧
      (finite true 125 (-3)).divide (finite false 100 (-2)) 2 = .ok (finite true 13 (-2)) ∧
      (finite true 13 (-2)).RoundedTo
        ((finite true 125 (-3)).toRat / (finite false 100 (-2)).toRat) 2 ∧
      (finite true 1250 (-4)).divide (finite false 1 0) 2 = .ok (finite true 13 (-2)) ∧
      (finite true 0 7).toRat = 0 ∧
      ∃ f, (finite true 125 (-3)).divide (finite true 0 7) 2 = .error f ∧
        f.message = .ok "#DIV0" := by
  have hne : (finite false 100 (-2)).toRat ≠ 0 := by rw [Ne, toRat_eq_zero_iff]; decide
  have hzero : (finite true 0 7).toRat = 0 := toRat_eq_zero_iff.2 rfl
  have hvalue : (finite true 125 (-3)).divide (finite false 100 (-2)) 2 =
      .ok (finite true 13 (-2)) := by
    decide +kernel
  obtain ⟨hquotient, -, hwritten⟩ :=
    divide_roundedTo (a := finite true 125 (-3)) (b := finite false 100 (-2)) rfl rfl 2
  obtain ⟨d, hd, hrounded⟩ := hquotient hne
  obtain rfl := Except.ok.inj (hvalue.symm.trans hd)
  have hsame := hwritten (finite true 1250 (-4)) (finite false 1 0)
    ⟨rfl, rfl, by rw [toRat_finite, toRat_finite]; norm_num [signed]⟩
    ⟨rfl, rfl, by rw [toRat_finite, toRat_finite]; norm_num [signed]⟩
  exact ⟨rfl, rfl, hne, hvalue, hrounded, hsame.trans hvalue, hzero,
    (divide_roundedTo (a := finite true 125 (-3)) (b := finite true 0 7) rfl rfl 2).2.1 hzero⟩

end Formula.Decimal
