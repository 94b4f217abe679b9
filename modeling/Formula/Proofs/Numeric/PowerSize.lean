import Formula.Proofs.Numeric.Power
import Formula.Proofs.Rendering.DigitCount

/-!
# The size of exact powers

Whether a power is computed exactly is decided before it is computed, by an estimate of its size:
the digits of the base and the amount of its exponent, times the amount of the power
(`Arithmetic.powerDigits`).  This file shows that the estimate is one from above.  What is measured
is what the power comes to in plain notation, with all the zeros that are written out.

* `digitCount_exactPower_le` — a power that is not negative has no more digits than estimated; the
  one digit of the power zero is not part of the estimate.
* `abs_zpow_le` and `IsNearest.abs_le_of_abs_le` — a negative power is at most a power of ten, and
  rounding does not carry it any further.
* `RoundedTo.digitCount_le` — so only the places come on top of its whole part, and those are at
  most the scale.

`digitCount_power_le` is the main result.
-/

set_option autoImplicit false

-- Powers are those of the core library.
attribute [local instance (high)] instPowNat

namespace Formula

namespace Decimal

/-! ## Numbers and powers of ten -/

theorem ten_zpow_le_pow_toNat (e : Int) : (10 : ℚ) ^ e ≤ 10 ^ e.toNat := by
  rw [← zpow_natCast]
  exact zpow_le_zpow_right₀ (by norm_num) (by omega)

/-- A number is below the power of ten that its digits and its written-out zeros make up. -/
theorem abs_toRat_lt (s : Bool) (c : Nat) (e : Int) :
    |(finite s c e).toRat| < 10 ^ (Digits.count c + e.toNat) := by
  have hc : (c : ℚ) < 10 ^ Digits.count c := by exact_mod_cast Digits.lt_pow_count c
  rw [abs_toRat, pow_add]
  exact mul_lt_mul hc (ten_zpow_le_pow_toNat e) (ten_zpow_pos e) (by positivity)

/-- A number other than zero is at least a unit of its last place. -/
theorem le_abs_toRat {s : Bool} {c : Nat} {e : Int} (hc : c ≠ 0) :
    ((10 : ℚ) ^ (-e).toNat)⁻¹ ≤ |(finite s c e).toRat| := by
  have hone : (1 : ℚ) ≤ c := by exact_mod_cast Nat.one_le_iff_ne_zero.2 hc
  rw [abs_toRat, ← zpow_natCast, ← zpow_neg]
  calc (10 : ℚ) ^ (-((-e).toNat : Int)) ≤ 10 ^ e := zpow_le_zpow_right₀ (by norm_num) (by omega)
    _ = 1 * 10 ^ e := (one_mul _).symm
    _ ≤ c * 10 ^ e := mul_le_mul_of_nonneg_right hone (ten_zpow_pos e).le

/-- **A negative power of a number is at most a power of ten.** -/
theorem abs_zpow_le {s : Bool} {c : Nat} {e n : Int} (hc : c ≠ 0) (hn : n < 0) :
    |(finite s c e).toRat ^ n| ≤ 10 ^ ((-e).toNat * n.natAbs) := by
  have hn' : n = -(n.natAbs : Int) := by omega
  have hinv : |(finite s c e).toRat|⁻¹ ≤ 10 ^ (-e).toNat :=
    inv_le_of_inv_le₀ (by positivity) (le_abs_toRat hc)
  rw [abs_zpow, hn', zpow_neg, zpow_natCast, ← inv_pow, pow_mul, Int.natAbs_neg, Int.natAbs_natCast]
  exact pow_le_pow_left₀ (inv_nonneg.2 (abs_nonneg _)) hinv _

/-! ## Rounding -/

/-- **Rounding does not go beyond a whole number.** -/
theorem IsNearest.abs_le_of_abs_le {m : Int} {x : ℚ} {bound : Nat} (h : IsNearest m x)
    (hx : |x| ≤ bound) : |m| ≤ bound := by
  obtain ⟨hlower, hupper⟩ := abs_le.1 hx
  refine abs_le.2 ⟨not_lt.1 fun hm ↦ ?_, not_lt.1 fun hm ↦ ?_⟩
  · -- the bound itself would be nearer
    have hm' : (m : ℚ) < -(bound : ℚ) := by exact_mod_cast hm
    have hnear := h.nearest (-(bound : Int))
    push_cast at hnear
    rw [abs_of_nonneg (by linarith), abs_of_nonneg (by linarith)] at hnear
    linarith
  · have hm' : (bound : ℚ) < m := by exact_mod_cast hm
    have hnear := h.nearest bound
    push_cast at hnear
    rw [abs_of_nonpos (by linarith), abs_of_nonpos (by linarith)] at hnear
    linarith

/-- A stripped multiple of a unit has no smaller unit. -/
theorem Stripped.neg_exponent_le {s : Bool} {c : Nat} {e scale m : Int}
    (h : Stripped (finite s c e)) (hscale : 0 ≤ scale)
    (hm : (finite s c e).toRat = m * 10 ^ (-scale)) : -e ≤ scale := by
  cases h with
  | zero => exact hscale
  | digits hc =>
    have habs : (c * 10 ^ e : ℚ) = m.natAbs * 10 ^ (-scale) := by
      rw [← abs_toRat s c e, hm, abs_mul, abs_of_pos (ten_zpow_pos _), Nat.cast_natAbs,
        Int.cast_abs]
    have := exponent_le_of_mod_ne_zero hc habs
    omega

/-- **A rounded number has the digits of its bound and those of the scale.** -/
theorem RoundedTo.digitCount_le {x : ℚ} {scale : Int} {d : Decimal} {k : Nat}
    (h : d.RoundedTo x scale) (hscale : 0 ≤ scale) (hx : |x| ≤ 10 ^ k) :
    (d.digitCount : Int) ≤ k + 1 + scale := by
  obtain ⟨⟨m, hm, hvalue⟩, hstripped⟩ := h
  have hpos := ten_zpow_pos scale
  have hscaled : (10 : ℚ) ^ scale = (10 ^ scale.toNat : Nat) := by
    rw [Nat.cast_pow, ← zpow_natCast, Int.toNat_of_nonneg hscale]
    rfl
  have hmbound : |x * 10 ^ scale| ≤ (10 ^ k * 10 ^ scale.toNat : Nat) := by
    rw [abs_mul, abs_of_pos hpos, Nat.cast_mul, ← hscaled]
    push_cast
    exact mul_le_mul_of_nonneg_right hx hpos.le
  have hmabs : |(m : ℚ)| ≤ 10 ^ k * 10 ^ scale := by
    have hle := hm.abs_le_of_abs_le hmbound
    rw [hscaled]
    exact_mod_cast hle
  cases d with
  | infinity => cases hstripped
  | nan => cases hstripped
  | finite s c e =>
    have hplaces := hstripped.neg_exponent_le hscale hvalue
    have hlt : |(finite s c e).toRat| < 10 ^ (k + 1) :=
      calc |(finite s c e).toRat| = |(m : ℚ)| * (10 ^ scale)⁻¹ := by
            rw [hvalue, abs_mul, zpow_neg, abs_of_pos (inv_pos.2 hpos)]
        _ ≤ 10 ^ k * 10 ^ scale * (10 ^ scale)⁻¹ :=
          mul_le_mul_of_nonneg_right hmabs (inv_pos.2 hpos).le
        _ = 10 ^ k := mul_inv_cancel_right₀ hpos.ne' _
        _ < 10 ^ (k + 1) := pow_lt_pow_right₀ (by norm_num) (Nat.lt_succ_self k)
    have := Decimal.digitCount_le (Nat.succ_pos k) hlt
    omega

end Decimal

namespace Arithmetic

open Decimal

/-! ## The estimate -/

theorem toNat_mul_natCast (z : Int) (n : Nat) : (z * n).toNat = z.toNat * n := by
  rcases le_total 0 z with hz | hz
  · obtain ⟨m, rfl⟩ := Int.eq_ofNat_of_zero_le hz
    rw [← Nat.cast_mul, Int.toNat_natCast, Int.toNat_natCast]
  · rw [Int.toNat_of_nonpos hz, Int.toNat_of_nonpos (mul_nonpos_of_nonpos_of_nonneg hz (by omega)),
      Nat.zero_mul]

/-- **A whole power that is not negative has no more digits than estimated.**  The digits of the
base and its written-out zeros bound the whole part, and its places are those of the power. -/
theorem digitCount_exactPower_le (s : Bool) (c : Nat) (e : Int) (n : Nat) :
    (exactPower (finite s c e) n).digitCount ≤ max 1 ((Digits.count c + e.natAbs) * n) := by
  rcases Nat.eq_zero_or_pos n with rfl | hn
  · have hone : (exactPower (finite s c e) 0).digitCount = 1 := by
      rw [exactPower, Nat.cast_zero, mul_zero, digitCount_finite, Nat.pow_zero]
      decide +kernel
    rw [hone]
    exact Nat.le_max_left 1 _
  · have hvalue := (exactPower_spec (d := finite s c e) rfl n).2
    have hlt : |(exactPower (finite s c e) n).toRat| < 10 ^ ((Digits.count c + e.toNat) * n) := by
      rw [hvalue, abs_pow, pow_mul]
      exact pow_lt_pow_left₀ (abs_toRat_lt s c e) (abs_nonneg _) hn.ne'
    have hpos : 0 < (Digits.count c + e.toNat) * n :=
      Nat.mul_pos (Nat.add_pos_left (Digits.count_pos c) _) hn
    have hamount : Digits.count c + e.natAbs = Digits.count c + e.toNat + (-e).toNat := by omega
    calc (exactPower (finite s c e) n).digitCount
        ≤ (Digits.count c + e.toNat) * n + (-(e * n)).toNat := Decimal.digitCount_le hpos hlt
      _ = (Digits.count c + e.natAbs) * n := by
        rw [← neg_mul, toNat_mul_natCast, hamount, Nat.add_mul _ (-e).toNat]
      _ ≤ max 1 ((Digits.count c + e.natAbs) * n) := Nat.le_max_right 1 _

variable {ar : Arithmetic} {base exponent : Decimal} {n scale : Int}

theorem Admits.digitCount_of_nonneg (h : ar.Admits base exponent n) (hn : 0 ≤ n) {k : Nat}
    (hk : powerDigits base n = .ok k) (scale : Int) :
    ∃ d, ar.power base exponent scale = .ok d ∧ d.digitCount ≤ max 1 k := by
  match base, h.base_finite with
  | finite s c e, _ =>
    obtain rfl := Except.ok.inj hk
    refine ⟨_, h.power_of_nonneg hn scale, ?_⟩
    have hamount : n.toNat = n.natAbs := by omega
    rw [hamount]
    exact digitCount_exactPower_le s c e n.natAbs

/-- The estimate covers the whole part of a negative power, and its first digit in particular. -/
theorem lt_estimate (c : Nat) (e : Int) (hn : n < 0) :
    (-e).toNat * n.natAbs + 1 ≤ (Digits.count c + e.natAbs) * n.natAbs := by
  have hpos := Digits.count_pos c
  calc (-e).toNat * n.natAbs + 1 ≤ (-e).toNat * n.natAbs + n.natAbs := by omega
    _ = ((-e).toNat + 1) * n.natAbs := (Nat.succ_mul _ _).symm
    _ ≤ (Digits.count c + e.natAbs) * n.natAbs := Nat.mul_le_mul_right _ (by omega)

theorem Admits.digitCount_of_neg (h : ar.Admits base exponent n) (hn : n < 0)
    (hbase : base.toRat ≠ 0) (hscale : 0 ≤ scale) {k : Nat} (hk : powerDigits base n = .ok k) :
    ∃ d, ar.power base exponent scale = .ok d ∧ (d.digitCount : Int) ≤ k + scale := by
  match base, h.base_finite with
  | finite s c e, _ =>
    obtain rfl := Except.ok.inj hk
    obtain ⟨d, hd, hrounded⟩ := h.exists_roundedTo hn hbase scale
    have hcount := hrounded.digitCount_le hscale
      (abs_zpow_le (fun hc ↦ hbase (toRat_eq_zero_iff.2 hc)) hn)
    have hestimate := lt_estimate c e hn
    exact ⟨d, hd, by omega⟩

/-! ## All powers within the bounds -/

/-- **The estimate bounds the size of exact powers.**  Let the exponent denote the whole number `n`,
let the power of the base be within the bounds of exact powers, and let the scale not be negative.
If `n` is not negative, the power in plain notation has at most as many digits as were estimated, or
one.  If `n` is negative and the base is not zero, it has at most the scale more than that.  So
whenever there is a power, its digits are bounded by the limit of the arithmetic and the scale. -/
theorem digitCount_power_le (h : ar.Admits base exponent n) (hscale : 0 ≤ scale) :
    ∃ k, powerDigits base n = .ok k ∧ (k : Int) ≤ ar.maxResultDigits ∧
      (0 ≤ n → ∃ d, ar.power base exponent scale = .ok d ∧ d.digitCount ≤ max 1 k) ∧
      (n < 0 → base.toRat ≠ 0 →
        ∃ d, ar.power base exponent scale = .ok d ∧ (d.digitCount : Int) ≤ k + scale) ∧
      ∀ d, ar.power base exponent scale = .ok d →
        (d.digitCount : Int) ≤ max 1 ar.maxResultDigits + scale := by
  obtain ⟨k, hk, hsize⟩ := h.size
  refine ⟨k, hk, hsize, fun hn ↦ h.digitCount_of_nonneg hn hk scale,
    fun hn hbase ↦ h.digitCount_of_neg hn hbase hscale hk, fun d hd ↦ ?_⟩
  rcases lt_or_ge n 0 with hn | hn
  · by_cases hbase : base.toRat = 0
    · rw [h.power_eq, wholePower, if_neg (Int.not_le.2 hn),
        if_pos ((isZero_iff h.base_finite).2 hbase)] at hd
      cases hd
    · obtain ⟨d', hd', hcount⟩ := h.digitCount_of_neg hn hbase hscale hk
      obtain rfl := Except.ok.inj (hd'.symm.trans hd)
      omega
  · obtain ⟨d', hd', hcount⟩ := h.digitCount_of_nonneg hn hk scale
    obtain rfl := Except.ok.inj (hd'.symm.trans hd)
    omega

/-- The square of `-99` and the reciprocal of `0.1` at the scale zero, both of which have as many
digits as are estimated. -/
theorem digitCount_power_le_reached :
    (Settings.standard.arithmetic .native).Admits (finite true 99 0) (finite false 20 (-1)) 2 ∧
      (Settings.standard.arithmetic .native).Admits (finite false 1 (-1)) (finite true 1 0) (-1) ∧
      (∃ k d, powerDigits (finite true 99 0) 2 = .ok k ∧
        (Settings.standard.arithmetic .native).power (finite true 99 0) (finite false 20 (-1)) 0 =
          .ok d ∧ d.digitCount = 4 ∧ d.digitCount ≤ max 1 k ∧ k = 4) ∧
      ∃ k d, powerDigits (finite false 1 (-1)) (-1) = .ok k ∧
        (Settings.standard.arithmetic .native).power (finite false 1 (-1)) (finite true 1 0) 0 =
          .ok d ∧ d.digitCount = 2 ∧ (d.digitCount : Int) ≤ k + 0 ∧ k = 2 := by
  have hsquare : (Settings.standard.arithmetic .native).Admits (finite true 99 0)
      (finite false 20 (-1)) 2 :=
    ⟨rfl, rfl, by rw [toRat_finite]; norm_num [signed], by decide, 4, by decide +kernel, by decide⟩
  have hreciprocal : (Settings.standard.arithmetic .native).Admits (finite false 1 (-1))
      (finite true 1 0) (-1) :=
    ⟨rfl, rfl, by rw [toRat_finite]; norm_num [signed], by decide, 2, by decide +kernel, by decide⟩
  have hne : (finite false 1 (-1)).toRat ≠ 0 := by rw [Ne, toRat_eq_zero_iff]; decide
  have hsquared : (Settings.standard.arithmetic .native).power (finite true 99 0)
      (finite false 20 (-1)) 0 = .ok (finite false 9801 0) := by
    decide +kernel
  have hten : (Settings.standard.arithmetic .native).power (finite false 1 (-1))
      (finite true 1 0) 0 = .ok (finite false 1 1) := by
    decide +kernel
  refine ⟨hsquare, hreciprocal, ?_, ?_⟩
  · obtain ⟨k, hk, -, hnonneg, -⟩ := digitCount_power_le hsquare (le_refl 0)
    obtain ⟨d, hd, hcount⟩ := hnonneg (by decide)
    obtain rfl := Except.ok.inj (hsquared.symm.trans hd)
    have hfour : k = 4 := Except.ok.inj (hk.symm.trans (by decide +kernel))
    exact ⟨k, _, hk, hd, by decide +kernel, hcount, hfour⟩
  · obtain ⟨k, hk, -, -, hneg, -⟩ := digitCount_power_le hreciprocal (le_refl 0)
    obtain ⟨d, hd, hcount⟩ := hneg (by decide) hne
    obtain rfl := Except.ok.inj (hten.symm.trans hd)
    have htwo : k = 2 := Except.ok.inj (hk.symm.trans (by decide +kernel))
    exact ⟨k, _, hk, hd, by decide +kernel, hcount, htwo⟩

end Arithmetic

end Formula
