import Formula.Decimal.Integral
import Formula.Decimal.Rounding
import Formula.Proofs.Digits
import Formula.Proofs.Numeric

/-!
# Rounding as an operation on numbers

Quotients and rounded decimals depend on the numbers alone, not on how they are written.  This file
says which numbers they are.  `roundHalf x places` is the nearest multiple of `10 ^ (-places)`, and
the further one from zero if there are two.

* `roundTo_spec` — rounding to a number of places.
* `divide_spec` — the quotient, rounded to the scale.
* `integralValue_eq_some_iff` — the whole number that a decimal denotes, if it is within the limit:
  what is turned away unseen is beyond the limit (`outgrows_eq_false`), and the conversion of the
  rest depends on the number alone (`toInt?_eq_some_iff`).
-/

set_option autoImplicit false

-- Powers are those of the core library.
attribute [local instance (high)] instPowNat

namespace Formula.Decimal

/-! ## The nearest multiple -/

/-- The multiple of `10 ^ (-places)` that is nearest to a number; of two, the one further from
zero. -/
def roundHalf (x : ℚ) (places : Int) : ℚ :=
  (if x < 0 then -1 else 1) * (⌊|x| * 10 ^ places + 1 / 2⌋₊ * 10 ^ (-places))

theorem floor_half : ⌊(1 / 2 : ℚ)⌋₊ = 0 := by norm_num

theorem floor_natCast_add_half (n : Nat) : ⌊(n + 1 / 2 : ℚ)⌋₊ = n := by
  rw [add_comm, Nat.floor_add_natCast (by norm_num), floor_half, Nat.zero_add]

theorem roundDiv_eq_floor {n d : Nat} (hd : 0 < d) : roundDiv n d = ⌊(n / d + 1 / 2 : ℚ)⌋₊ := by
  have hd' : (d : ℚ) ≠ 0 := by exact_mod_cast hd.ne'
  have hsum : (n / d + 1 / 2 : ℚ) = (2 * n + d : Nat) / (2 * d : Nat) := by
    push_cast
    field_simp
  rw [hsum, Nat.floor_div_eq_div, roundDiv]

/-- A decimal with the digits of the rounded number denotes it; only a zero may have any sign. -/
theorem toRat_eq_roundHalf {s : Bool} {n : Nat} {x : ℚ} {places : Int}
    (hs : x ≠ 0 → s = decide (x < 0)) (hn : n = ⌊|x| * 10 ^ places + 1 / 2⌋₊) :
    (finite s n (-places)).toRat = roundHalf x places := by
  rw [roundHalf, ← hn, toRat_finite]
  by_cases hx : x = 0
  · have hn0 : n = 0 := by rw [hn, hx, abs_zero, zero_mul, zero_add, floor_half]
    rw [hn0, signed_zero]
    simp
  · rw [hs hx]
    by_cases hneg : x < 0
    · rw [if_pos hneg, decide_eq_true hneg]
      simp [signed]
    · rw [if_neg hneg, decide_eq_false hneg]
      simp [signed]

/-! ## Rounding to places -/

/-- **Rounding to a number of places gives the nearest number with so many places.** -/
theorem roundTo_spec {d : Decimal} (hd : d.isFinite) (places : Int) :
    ∃ r, d.roundTo places = .ok r ∧ r.isFinite ∧ r.toRat = roundHalf d.toRat places := by
  match d, hd with
  | finite s c e, _ =>
    rw [roundTo]
    split
    · rename_i he
      refine ⟨_, rfl, rfl, toRat_eq_roundHalf negative_eq_of_ne_zero ?_⟩
      have hplaces : ((e + places).toNat : Int) = e + places := by omega
      have hvalue : (c * 10 ^ e : ℚ) * 10 ^ places = (c * 10 ^ (e + places).toNat : Nat) := by
        rw [mul_assoc, ← zpow_add₀ (by norm_num), ← hplaces, zpow_natCast, Nat.cast_mul,
          Nat.cast_pow]
        rfl
      rw [abs_toRat, hvalue, floor_natCast_add_half]
    · rename_i he
      refine ⟨_, rfl, rfl, toRat_eq_roundHalf negative_eq_of_ne_zero ?_⟩
      have hplaces : ((-places - e).toNat : Int) = -places - e := by omega
      have hvalue : (c * 10 ^ e : ℚ) * 10 ^ places = c / (10 ^ (-places - e).toNat : Nat) := by
        rw [mul_assoc, ← zpow_add₀ (by norm_num), Nat.cast_pow, ← zpow_natCast, hplaces,
          div_eq_mul_inv, Nat.cast_ofNat, ← zpow_neg]
        congr 2
        omega
      rw [abs_toRat, hvalue, roundDiv_eq_floor (Nat.pow_pos (by decide))]

/-! ## Quotients -/

theorem toRat_stripZeros (d : Decimal) : d.stripZeros.toRat = d.toRat := by
  cases d with
  | infinity => rfl
  | nan => rfl
  | finite s c e =>
    rw [stripZeros]
    split
    · rename_i hc
      rw [hc, toRat_finite, toRat_finite, signed_zero]
      simp
    · obtain ⟨n, he, hc⟩ := stripCoefficient_shift c e
      have hsigned : (signed s c : ℚ) = signed s (stripCoefficient c e).1 * (10 ^ n : Nat) := by
        conv => lhs; rw [hc]
        exact signed_mul_natCast ..
      dsimp only
      rw [toRat_finite, toRat_finite, he, hsigned, cast_mul_ten_pow]

theorem isFinite_stripZeros (d : Decimal) : d.stripZeros.isFinite = d.isFinite := by
  cases d with
  | infinity => rfl
  | nan => rfl
  | finite s c e =>
    rw [stripZeros]
    split <;> rfl

theorem divide_zero {a b : Decimal} (h : b.isZero) (scale : Int) :
    a.divide b scale = .error .divisionByZero := by
  rw [divide.eq_def, if_pos h]

/-- The sign of a quotient. -/
theorem negative_div {s t : Bool} {x y : ℚ} (hx : x ≠ 0) (hy : y ≠ 0) (hs : s = decide (x < 0))
    (ht : t = decide (y < 0)) : (s != t) = decide (x / y < 0) := by
  rw [hs, ht]
  rcases lt_or_gt_of_ne hx with hx | hx <;> rcases lt_or_gt_of_ne hy with hy | hy
  · rw [decide_eq_true hx, decide_eq_true hy,
      decide_eq_false (not_lt.2 (div_pos_of_neg_of_neg hx hy).le)]
    rfl
  · rw [decide_eq_true hx, decide_eq_false (not_lt.2 hy.le),
      decide_eq_true (div_neg_of_neg_of_pos hx hy)]
    rfl
  · rw [decide_eq_false (not_lt.2 hx.le), decide_eq_true hy,
      decide_eq_true (div_neg_of_pos_of_neg hx hy)]
    rfl
  · rw [decide_eq_false (not_lt.2 hx.le), decide_eq_false (not_lt.2 hy.le),
      decide_eq_false (not_lt.2 (div_pos hx hy).le)]
    rfl

/-- **A quotient is rounded to the scale.** -/
theorem divide_spec {a b : Decimal} (ha : a.isFinite) (hb : b.isFinite) (h : b.toRat ≠ 0)
    (scale : Int) :
    ∃ r, a.divide b scale = .ok r ∧ r.isFinite ∧ r.toRat = roundHalf (a.toRat / b.toRat) scale := by
  match a, b, ha, hb with
  | finite s c e, finite t d f, _, _ =>
    have hd : d ≠ 0 := fun hd ↦ h (toRat_eq_zero_iff.2 hd)
    have hzero : ¬ (finite t d f).isZero = true := by rwa [isZero_iff rfl]
    rw [divide.eq_def, if_neg hzero]
    refine ⟨_, rfl, isFinite_stripZeros _, ?_⟩
    rw [toRat_stripZeros]
    generalize hq :
      roundDiv (c * 10 ^ (e - f + scale).toNat) (d * 10 ^ (-(e - f + scale)).toNat) = q
    have hsign : (finite (s != t && q != 0) q (-scale)).toRat =
        (finite (s != t) q (-scale)).toRat := by
      rw [toRat_finite, toRat_finite]
      by_cases hq0 : q = 0
      · rw [hq0, signed_zero, signed_zero]
      · have hne : (q != 0) = true := by simpa using hq0
        rw [hne, Bool.and_true]
    rw [hsign]
    refine toRat_eq_roundHalf (fun hx ↦ ?_) ?_
    · have ha : (finite s c e).toRat ≠ 0 := fun ha ↦ hx (by rw [ha, zero_div])
      exact negative_div ha h (negative_eq_of_ne_zero ha) (negative_eq_of_ne_zero h)
    · have hd' : (d : ℚ) ≠ 0 := by exact_mod_cast hd
      have hvalue : |(finite s c e).toRat / (finite t d f).toRat| * 10 ^ scale =
          (c * 10 ^ (e - f + scale).toNat : Nat) / (d * 10 ^ (-(e - f + scale)).toNat : Nat) := by
        rw [abs_div, abs_toRat, abs_toRat]
        push_cast
        have hshift : (10 : ℚ) ^ (e - f + scale).toNat =
            10 ^ (e - f + scale) * 10 ^ (-(e - f + scale)).toNat := by
          rw [← zpow_natCast, ← zpow_natCast, ← zpow_add₀ (by norm_num)]
          congr 1
          omega
        rw [hshift, zpow_add₀ (by norm_num), zpow_sub₀ (by norm_num)]
        field_simp
      rw [hvalue, ← hq, roundDiv_eq_floor (Nat.mul_pos (Nat.pos_of_ne_zero hd)
        (Nat.pow_pos (by decide)))]

/-! ## Whole numbers -/

/-- The leading digit lies where `magnitude` says. -/
theorem magnitude_spec {c : Nat} (hc : c ≠ 0) (e : Int) :
    (10 : ℚ) ^ magnitude c e ≤ c * 10 ^ e ∧ c * 10 ^ e < (10 : ℚ) ^ (magnitude c e + 1) := by
  have hpos := Digits.count_pos c
  have hlower : ((10 ^ (Digits.count c - 1) : Nat) : ℚ) ≤ c := by
    exact_mod_cast Digits.pow_count_le hc
  have hupper : (c : ℚ) < (10 ^ Digits.count c : Nat) := by exact_mod_cast Digits.lt_pow_count c
  have hshift : magnitude c e = (Digits.count c - 1 : Nat) + e := by
    rw [magnitude]
    omega
  have hshift' : magnitude c e + 1 = (Digits.count c : Nat) + e := by
    rw [magnitude]
    omega
  rw [hshift', hshift, zpow_add₀ (by norm_num), zpow_add₀ (by norm_num), zpow_natCast, zpow_natCast]
  push_cast at hlower hupper
  exact ⟨mul_le_mul_of_nonneg_right hlower (ten_zpow_pos e).le,
    mul_lt_mul_of_pos_right hupper (ten_zpow_pos e)⟩

theorem within_eq_some_iff {limit m n : Int} :
    within limit m = some n ↔ m = n ∧ (n.natAbs : Int) ≤ limit := by
  rw [within]
  split
  · rename_i h
    simp only [Option.some.injEq]
    exact ⟨fun hm ↦ ⟨hm, hm ▸ h⟩, fun hm ↦ hm.1⟩
  · rename_i h
    exact ⟨nofun, fun hm ↦ absurd (hm.1 ▸ hm.2) h⟩

theorem coefficient_eq_of_toRat_eq {s : Bool} {c : Nat} {e n : Int} (h : (finite s c e).toRat = n) :
    (c * 10 ^ e : ℚ) = n.natAbs := by
  rw [← abs_toRat s c e, h, Nat.cast_natAbs, Int.cast_abs]

/-- A whole number whose leading digit lies beyond the digits of the limit is beyond the limit. -/
theorem magnitude_le_width {s : Bool} {c : Nat} {e limit n : Int} (hc : c ≠ 0)
    (hn : (finite s c e).toRat = n) (hlimit : (n.natAbs : Int) ≤ limit) :
    magnitude c e ≤ width limit := by
  have hlt : n.natAbs < 10 ^ Digits.count limit.natAbs :=
    Nat.lt_of_le_of_lt (by omega) (Digits.lt_pow_count limit.natAbs)
  have hpow : (10 : ℚ) ^ magnitude c e < 10 ^ (Digits.count limit.natAbs : Int) := by
    have hlt' : (n.natAbs : ℚ) < (10 ^ Digits.count limit.natAbs : Nat) := by exact_mod_cast hlt
    rw [zpow_natCast]
    push_cast at hlt'
    exact lt_of_le_of_lt ((magnitude_spec hc e).1.trans_eq (coefficient_eq_of_toRat_eq hn)) hlt'
  have hcount := (zpow_lt_zpow_iff_right₀ (by norm_num)).1 hpow
  rw [width]
  omega

/-- A decimal without places denotes a whole number. -/
theorem toRat_of_nonneg {e : Int} (he : 0 ≤ e) (s : Bool) (c : Nat) :
    (finite s c e).toRat = (signed s (c * 10 ^ e.toNat) : Int) := by
  have hexponent : (10 : ℚ) ^ e = (10 ^ e.toNat : Nat) := by
    rw [Nat.cast_pow, ← zpow_natCast, Int.toNat_of_nonneg he]
    rfl
  rw [toRat_finite, hexponent]
  cases s <;> simp [signed]

theorem zpow_mul_pow_neg {e : Int} (he : e < 0) :
    (10 : ℚ) ^ e * (10 ^ (-e).toNat : Nat) = 1 := by
  rw [Nat.cast_pow, ← zpow_natCast, Int.toNat_of_nonneg (by omega), Nat.cast_ofNat,
    ← zpow_add₀ (by norm_num), add_neg_cancel, zpow_zero]

/-- Nor do places matter if there are only zeros in them. -/
theorem toRat_of_neg {e : Int} (he : e < 0) (s : Bool) (q : Nat) :
    (finite s (q * 10 ^ (-e).toNat) e).toRat = (signed s q : Int) := by
  rw [toRat_finite, signed_mul_natCast, mul_assoc, mul_comm ((10 ^ (-e).toNat : Nat) : ℚ),
    zpow_mul_pow_neg he, mul_one]

/-- A decimal with places that denotes a whole number has only zeros in them. -/
theorem eq_mul_pow_of_neg {s : Bool} {c : Nat} {e n : Int} (he : e < 0)
    (h : (finite s c e).toRat = n) : c = n.natAbs * 10 ^ (-e).toNat := by
  have hmul := congrArg (· * ((10 ^ (-e).toNat : Nat) : ℚ)) (coefficient_eq_of_toRat_eq h)
  simp only [mul_assoc, zpow_mul_pow_neg he, mul_one] at hmul
  exact_mod_cast hmul

/-- **The whole number that a decimal denotes, however it is written.** -/
theorem toInt?_eq_some_iff {d : Decimal} (hd : d.isFinite) {n : Int} :
    d.toInt? = some n ↔ d.toRat = n := by
  match d, hd with
  | finite s c e, _ =>
    rw [toInt?]
    split
    · rename_i hc
      rw [hc, toRat_finite, signed_zero, Option.some_inj]
      simp [eq_comm]
    · split
      · rename_i he
        rw [toRat_of_nonneg he, Int.cast_inj, Option.some_inj]
      · rename_i he
        dsimp only
        split
        · rename_i hmod
          obtain ⟨q, hq⟩ := Nat.dvd_of_mod_eq_zero hmod
          have hpos : 0 < 10 ^ (-e).toNat := Nat.pow_pos (by decide)
          rw [hq, Nat.mul_div_cancel_left q hpos, Nat.mul_comm, toRat_of_neg (Int.not_le.1 he),
            Int.cast_inj, Option.some_inj]
        · rename_i hmod
          refine ⟨nofun, fun hn ↦ absurd ?_ hmod⟩
          rw [eq_mul_pow_of_neg (Int.not_le.1 he) hn, Nat.mul_mod_left]

/-- **No number within the limit is turned away unseen.** -/
theorem outgrows_eq_false {d : Decimal} {limit n : Int} (hn : d.toRat = n)
    (hlimit : (n.natAbs : Int) ≤ limit) : d.outgrows limit = false := by
  cases d with
  | finite s c e =>
    rw [outgrows, Bool.and_eq_false_imp]
    intro hc
    have := magnitude_le_width (of_decide_eq_true hc) hn hlimit
    exact decide_eq_false (Int.not_lt.2 this)
  | infinity => rfl
  | nan => rfl

theorem converted?_eq_some_iff {d : Decimal} (hd : d.isFinite) {limit n : Int} :
    d.converted? limit = some n ↔ d.toRat = n ∧ d.outgrows limit = false := by
  rw [converted?]
  split
  · rename_i h
    simp [h]
  · rename_i h
    rw [toInt?_eq_some_iff hd, iff_self_and]
    exact fun _ ↦ Bool.eq_false_of_not_eq_true h

/-- The whole number within the limit that a decimal denotes. -/
theorem integralValue_eq_some_iff {d : Decimal} (hd : d.isFinite) {limit n : Int} :
    d.integralValue limit = some n ↔ d.toRat = n ∧ (n.natAbs : Int) ≤ limit := by
  simp only [integralValue, Option.bind_eq_some_iff, within_eq_some_iff, converted?_eq_some_iff hd]
  constructor
  · rintro ⟨m, ⟨hm, -⟩, rfl, hlimit⟩
    exact ⟨hm, hlimit⟩
  · rintro ⟨hn, hlimit⟩
    exact ⟨n, ⟨hn, outgrows_eq_false hn hlimit⟩, rfl, hlimit⟩

theorem Equal.integralValue_eq {d d' : Decimal} (h : Equal d d') (limit : Int) :
    d.integralValue limit = d'.integralValue limit := by
  refine Option.ext fun n ↦ ?_
  rw [integralValue_eq_some_iff h.left, integralValue_eq_some_iff h.right, h.toRat_eq]

end Formula.Decimal
