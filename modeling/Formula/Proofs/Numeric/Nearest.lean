import Formula.Binary64.Nearest
import Formula.Proofs.Numeric.Rounding
import Mathlib.Data.Int.Log

/-!
# The nearest floating-point number depends on the number

`Binary64.ofDecimal` looks at the coefficient and the exponent of a decimal, but what it finds is
decided by their product alone.  So two decimals that denote the same number enter the
floating-point arithmetic as the same number — or as zeros, whose signs may differ
(`Binary64.Alike`).

* `floorLog2_eq_log` — the exponent of the leading bit is the logarithm of the quotient.
* `roundEven_congr` and `nearestPattern_congr` — equal quotients are rounded alike.
* `ofDecimal_alike` — the main result.
-/

set_option autoImplicit false

-- Powers are those of the core library.
attribute [local instance (high)] instPowNat

namespace Formula.Binary64

/-- The same number, or two zeros. -/
def Alike (x y : Binary64) : Prop := x = y ∨ x.isZero ∧ y.isZero

/-! ## The leading bit -/

theorem two_zpow_pos (k : Int) : (0 : ℚ) < 2 ^ k := zpow_pos (by norm_num) k

theorem scaleRatio_eq (n d : Nat) (k : Int) :
    ((scaleRatio n d k).1 / (scaleRatio n d k).2 : ℚ) = n / d * 2 ^ k := by
  have hshift : (2 : ℚ) ^ k.toNat = 2 ^ k * 2 ^ (-k).toNat := by
    rw [← zpow_natCast, ← zpow_natCast, ← zpow_add₀ (by norm_num)]
    congr 1
    omega
  rw [scaleRatio]
  push_cast
  rw [hshift]
  by_cases hd : (d : ℚ) = 0
  · rw [hd]
    simp
  · field_simp

theorem scaleRatio_pos {n d : Nat} (hd : 0 < d) (k : Int) : 0 < (scaleRatio n d k).2 :=
  Nat.mul_pos hd (Nat.pow_pos (by decide))

/-- The two candidates for the exponent of the leading bit. -/
theorem quotient_bounds {n d : Nat} (hn : 0 < n) (hd : 0 < d) :
    (2 : ℚ) ^ ((n.log2 : Int) - d.log2 - 1) < n / d ∧
      (n / d : ℚ) < 2 ^ ((n.log2 : Int) - d.log2 + 1) := by
  have hd' : (0 : ℚ) < d := by exact_mod_cast hd
  have hbounds : ∀ {m : Nat}, 0 < m → (2 : ℚ) ^ (m.log2 : Int) ≤ m ∧
      (m : ℚ) < 2 ^ (m.log2 : Int) * 2 := by
    intro m hm
    have hlower : ((2 ^ m.log2 : Nat) : ℚ) ≤ m := by exact_mod_cast Nat.log2_self_le hm.ne'
    have hupper : (m : ℚ) < (2 ^ (m.log2 + 1) : Nat) := by exact_mod_cast Nat.lt_log2_self
    rw [Nat.pow_succ] at hupper
    push_cast at hlower hupper
    rw [zpow_natCast]
    exact ⟨hlower, hupper⟩
  obtain ⟨hn1, hn2⟩ := hbounds hn
  obtain ⟨hd1, hd2⟩ := hbounds hd
  have hpos := two_zpow_pos d.log2
  rw [lt_div_iff₀ hd', div_lt_iff₀ hd', zpow_sub₀ (by norm_num), zpow_add₀ (by norm_num),
    zpow_sub₀ (by norm_num), zpow_one]
  constructor
  · calc (2 : ℚ) ^ (n.log2 : Int) / 2 ^ (d.log2 : Int) / 2 * d
        < 2 ^ (n.log2 : Int) / 2 ^ (d.log2 : Int) / 2 * (2 ^ (d.log2 : Int) * 2) :=
          mul_lt_mul_of_pos_left hd2 (by positivity)
      _ = 2 ^ (n.log2 : Int) := by field_simp
      _ ≤ n := hn1
  · calc (n : ℚ) < 2 ^ (n.log2 : Int) * 2 := hn2
      _ = 2 ^ (n.log2 : Int) / 2 ^ (d.log2 : Int) * 2 * 2 ^ (d.log2 : Int) := by field_simp
      _ ≤ 2 ^ (n.log2 : Int) / 2 ^ (d.log2 : Int) * 2 * d :=
          mul_le_mul_of_nonneg_left hd1 (by positivity)

/-- **The exponent of the leading bit is a logarithm.** -/
theorem floorLog2_eq_log {n d : Nat} (hn : 0 < n) (hd : 0 < d) :
    floorLog2 n d = Int.log 2 (n / d : ℚ) := by
  have hpos : (0 : ℚ) < n / d := div_pos (by exact_mod_cast hn) (by exact_mod_cast hd)
  obtain ⟨hlower, hupper⟩ := quotient_bounds hn hd
  have hlog : ∀ k : Int, (2 : ℚ) ^ k ≤ n / d → (n / d : ℚ) < 2 ^ (k + 1) →
      k = Int.log 2 (n / d : ℚ) := by
    intro k h1 h2
    have h1' := (Int.zpow_le_iff_le_log (b := 2) (by decide) hpos).1 (by exact_mod_cast h1)
    have h2' := (Int.lt_zpow_iff_log_lt (b := 2) (by decide) hpos).1 (by exact_mod_cast h2)
    omega
  generalize hk : (n.log2 : Int) - d.log2 = k at hlower hupper
  have htest : (scaleRatio n d (-k)).2 ≤ (scaleRatio n d (-k)).1 ↔ (2 : ℚ) ^ k ≤ n / d := by
    have hpos' : (0 : ℚ) < (scaleRatio n d (-k)).2 := by exact_mod_cast scaleRatio_pos hd (-k)
    rw [← Nat.cast_le (α := ℚ), ← one_le_div hpos', scaleRatio_eq, zpow_neg, ← div_eq_mul_inv,
      one_le_div (two_zpow_pos k)]
  rw [floorLog2]
  rw [hk]
  dsimp only
  split
  · rename_i h
    exact hlog k (htest.1 h) hupper
  · rename_i h
    refine hlog (k - 1) hlower.le ?_
    rw [Int.sub_add_cancel]
    exact not_le.1 (htest.not.1 h)

/-! ## Rounding -/

/-- **Equal quotients are rounded alike.** -/
theorem roundEven_congr {n d n' d' : Nat} (hd : 0 < d) (hd' : 0 < d') (h : n * d' = n' * d) :
    roundEven n d = roundEven n' d' := by
  have hquotient : n / d = n' / d' := by
    rw [← Nat.mul_div_mul_right n d hd', h, Nat.mul_comm d d', Nat.mul_div_mul_right n' d' hd]
  have hremainder : n % d * d' = n' % d' * d := by
    rw [← Nat.mul_mod_mul_right, h, Nat.mul_comm d d', Nat.mul_mod_mul_right]
  have hlt : d < 2 * (n % d) ↔ d' < 2 * (n' % d') := by
    rw [← Nat.mul_lt_mul_right hd', Nat.mul_assoc, hremainder, ← Nat.mul_assoc, Nat.mul_comm d d',
      Nat.mul_lt_mul_right hd]
  have heq : d = 2 * (n % d) ↔ d' = 2 * (n' % d') := by
    rw [← Nat.mul_left_inj hd'.ne', Nat.mul_assoc, hremainder, ← Nat.mul_assoc, Nat.mul_comm d d',
      Nat.mul_left_inj hd.ne']
  unfold roundEven
  simp only [hquotient, hlt, heq]

theorem nearestPattern_congr {n d n' d' : Nat} (hn : 0 < n) (hd : 0 < d) (hn' : 0 < n')
    (hd' : 0 < d') (h : n * d' = n' * d) : nearestPattern n d = nearestPattern n' d' := by
  have hratio : (n / d : ℚ) = n' / d' := by
    rw [div_eq_div_iff (by exact_mod_cast hd.ne') (by exact_mod_cast hd'.ne')]
    exact_mod_cast h
  have hlog : floorLog2 n d = floorLog2 n' d' := by
    rw [floorLog2_eq_log hn hd, floorLog2_eq_log hn' hd', hratio]
  have hscaled : ∀ k, (scaleRatio n d k).1 * (scaleRatio n' d' k).2 =
      (scaleRatio n' d' k).1 * (scaleRatio n d k).2 := by
    intro k
    simp only [scaleRatio]
    calc n * 2 ^ k.toNat * (d' * 2 ^ (-k).toNat)
        = n * d' * (2 ^ k.toNat * 2 ^ (-k).toNat) := by ring
      _ = n' * d * (2 ^ k.toNat * 2 ^ (-k).toNat) := by rw [h]
      _ = n' * 2 ^ k.toNat * (d * 2 ^ (-k).toNat) := by ring
  unfold nearestPattern
  rw [hlog]
  dsimp only
  rw [roundEven_congr (scaleRatio_pos hd _) (scaleRatio_pos hd' _) (hscaled _)]

/-! ## Decimals -/

open Decimal

theorem ratio_eq (c : Nat) (e : Int) :
    ((c * 10 ^ e.toNat : Nat) / (10 ^ (-e).toNat : Nat) : ℚ) = c * 10 ^ e := by
  have hshift : (10 : ℚ) ^ e.toNat = 10 ^ e * 10 ^ (-e).toNat := by
    rw [← zpow_natCast, ← zpow_natCast, ← zpow_add₀ (by norm_num)]
    congr 1
    omega
  push_cast
  rw [hshift]
  field_simp

theorem magnitude_eq {c c' : Nat} {e e' : Int} (hc : c ≠ 0) (hc' : c' ≠ 0)
    (h : (c * 10 ^ e : ℚ) = c' * 10 ^ e') : magnitude c e = magnitude c' e' := by
  obtain ⟨hlower, hupper⟩ := magnitude_spec hc e
  obtain ⟨hlower', hupper'⟩ := magnitude_spec hc' e'
  rw [h] at hlower hupper
  have hlt := (zpow_lt_zpow_iff_right₀ (by norm_num)).1 (lt_of_le_of_lt hlower hupper')
  have hlt' := (zpow_lt_zpow_iff_right₀ (by norm_num)).1 (lt_of_le_of_lt hlower' hupper)
  omega

theorem isZero_ofPattern_zero (s : Bool) : (ofPattern s 0).isZero := by cases s <;> decide

/-- **Decimals that denote the same number enter the floating-point arithmetic alike.** -/
theorem ofDecimal_alike {d d' : Decimal} (h : Equal d d') : (ofDecimal d).Alike (ofDecimal d') := by
  obtain ⟨hd, hd', hvalue⟩ := h
  match d, d', hd, hd' with
  | .finite s c e, .finite s' c' e', _, _ =>
    by_cases hc : c = 0
    · have hc' : c' = 0 := by rw [← toRat_eq_zero_iff, ← hvalue, toRat_eq_zero_iff, hc]
      rw [ofDecimal, if_pos hc, ofDecimal, if_pos hc']
      exact .inr ⟨isZero_ofPattern_zero s, isZero_ofPattern_zero s'⟩
    · have hne : (Decimal.finite s c e).toRat ≠ 0 := fun h ↦ hc (toRat_eq_zero_iff.1 h)
      have hc' : c' ≠ 0 := fun h ↦ hne (hvalue.trans (toRat_eq_zero_iff.2 h))
      have hne' : (Decimal.finite s' c' e').toRat ≠ 0 := hvalue ▸ hne
      have hs : s = s' :=
        calc s = decide ((Decimal.finite s c e).toRat < 0) := negative_eq_of_ne_zero hne
          _ = decide ((Decimal.finite s' c' e').toRat < 0) := by rw [hvalue]
          _ = s' := (negative_eq_of_ne_zero hne').symm
      have habs : (c * 10 ^ e : ℚ) = c' * 10 ^ e' := by
        rw [← abs_toRat s c e, hvalue, abs_toRat]
      have hcross : c * 10 ^ e.toNat * 10 ^ (-e').toNat = c' * 10 ^ e'.toNat * 10 ^ (-e).toNat := by
        have hratio := (ratio_eq c e).trans (habs.trans (ratio_eq c' e').symm)
        rw [div_eq_div_iff (by positivity) (by positivity)] at hratio
        exact_mod_cast hratio
      have hpow : ∀ k : Nat, 0 < 10 ^ k := fun k ↦ Nat.pow_pos (by decide)
      refine .inl ?_
      rw [ofDecimal, if_neg hc, ofDecimal, if_neg hc', magnitude_eq hc hc' habs, hs,
        nearestPattern_congr (Nat.mul_pos (Nat.pos_of_ne_zero hc) (hpow _)) (hpow _)
          (Nat.mul_pos (Nat.pos_of_ne_zero hc') (hpow _)) (hpow _) hcross]

end Formula.Binary64
