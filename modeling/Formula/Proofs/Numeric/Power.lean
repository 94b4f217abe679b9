import Formula.Proofs.Numeric.Operators
import Formula.Proofs.Numeric.Quotient
import Formula.Settings

/-!
# Whole powers

A power is computed exactly if its exponent denotes a whole number within the bound, in whatever way
it is written, and the estimated size of the result is within the other bound
(`Arithmetic.Admits`).

* A power that is not negative loses nothing: its coefficient is the power of the coefficient, and
  its exponent the multiple of the exponent.  So such powers of one number can be multiplied by
  adding their exponents, and not even the way of writing changes (`exactPower_mul`).
* A negative power of a number other than zero is the quotient of one by an exact power, and it is
  rounded once, where the quotient is rounded (`Admits.exists_roundedTo`).

`power_whole` is the main result.
-/

set_option autoImplicit false

-- Powers are those of the core library.
attribute [local instance (high)] instPowNat

namespace Formula.Arithmetic

open Decimal

/-- The exponent denotes the whole number, and the power of the base is within the bounds of exact
powers. -/
structure Admits (ar : Arithmetic) (base exponent : Decimal) (n : Int) : Prop where
  base_finite : base.isFinite
  exponent_finite : exponent.isFinite
  toRat_eq : exponent.toRat = n
  limit : (n.natAbs : Int) ≤ ar.maxExactExponent
  size : ∃ k, powerDigits base n = .ok k ∧ (k : Int) ≤ ar.maxResultDigits

variable {ar : Arithmetic} {base exponent : Decimal} {n : Int}

/-- Within the bounds the machine is left out of it. -/
theorem Admits.power_eq (h : ar.Admits base exponent n) (scale : Int) :
    ar.power base exponent scale = wholePower base n scale := by
  have hn := (integralValue_eq_some_iff h.exponent_finite).2 ⟨h.toRat_eq, h.limit⟩
  obtain ⟨k, hk, hle⟩ := h.size
  rw [power, hn]
  dsimp only
  rw [hk]
  exact if_pos hle

/-- These are the powers that are computed exactly. -/
theorem isExact_iff_exists_admits (hbase : base.isFinite) (hexponent : exponent.isFinite) :
    ar.isExact base exponent ↔ ∃ n, ar.Admits base exponent n := by
  match base, hbase with
  | .finite s c e, hbase =>
    constructor
    · intro h
      obtain ⟨n, hn, -⟩ := power_of_isExact h 0
      obtain ⟨hvalue, hlimit⟩ := (integralValue_eq_some_iff hexponent).1 hn
      exact ⟨n, hbase, hexponent, hvalue, hlimit, _, rfl,
        (isExact_iff_of_integralValue hn s c e).1 h⟩
    · rintro ⟨n, h⟩
      have hn := (integralValue_eq_some_iff hexponent).2 ⟨h.toRat_eq, h.limit⟩
      obtain ⟨k, hk, hle⟩ := h.size
      obtain rfl := Except.ok.inj hk
      exact (isExact_iff_of_integralValue hn s c e).2 hle

/-! ## Powers that are not negative -/

theorem Admits.power_of_nonneg (h : ar.Admits base exponent n) (hn : 0 ≤ n) (scale : Int) :
    ar.power base exponent scale = .ok (exactPower base n.toNat) := by
  rw [h.power_eq, wholePower, if_pos hn]

/-- The sign of a product of powers. -/
theorem odd_bne_odd (s : Bool) (m n : Nat) :
    ((s && m % 2 = 1) != (s && n % 2 = 1)) = (s && (m + n) % 2 = 1) := by
  cases s with
  | false => rfl
  | true =>
    rcases Nat.mod_two_eq_zero_or_one m with hm | hm <;>
      rcases Nat.mod_two_eq_zero_or_one n with hn | hn <;> simp [Nat.add_mod, hm, hn]

/-- **Exact powers are multiplied by adding their exponents.** -/
theorem exactPower_mul (hbase : base.isFinite) (m n : Nat) :
    (exactPower base m).mul (exactPower base n) = .ok (exactPower base (m + n)) := by
  match base, hbase with
  | .finite s c e, _ =>
    have hexponent : e * (m : Int) + e * n = e * (m + n : Nat) := by
      push_cast
      ring
    rw [exactPower, exactPower, exactPower, Decimal.mul, odd_bne_odd, hexponent, ← Nat.pow_add]

/-! ## Negative powers -/

theorem toRat_ofInt (z : Int) : (ofInt z).toRat = z := by
  rw [ofInt, toRat_finite, signed_natAbs, zpow_zero, mul_one]

/-- **A negative power is rounded once**, from the exact value of the power. -/
theorem Admits.exists_roundedTo (h : ar.Admits base exponent n) (hn : n < 0)
    (hbase : base.toRat ≠ 0) (scale : Int) :
    ∃ d, ar.power base exponent scale = .ok d ∧ d.RoundedTo (base.toRat ^ n) scale := by
  obtain ⟨hfinite, hvalue⟩ := exactPower_spec h.base_finite n.natAbs
  have hne : (exactPower base n.natAbs).toRat ≠ 0 := hvalue ▸ pow_ne_zero _ hbase
  have hpower : base.toRat ^ n = (ofInt 1).toRat / (exactPower base n.natAbs).toRat := by
    have hn' : n = -(n.natAbs : Int) := by omega
    rw [toRat_ofInt, Int.cast_one, hvalue, one_div, ← zpow_natCast, ← zpow_neg, ← hn']
  have hnot : ¬ base.isZero = true := fun hzero ↦ hbase ((isZero_iff h.base_finite).1 hzero)
  rw [h.power_eq, wholePower, if_neg (by omega), if_neg hnot, hpower]
  exact exists_divide_roundedTo rfl hfinite hne scale

/-! ## All whole powers -/

/-- **Whole powers are exact, or rounded once.**  Let the exponent denote the whole number `n`, and
let the power of `± c · 10 ^ e` be within the bounds of exact powers.  If `n` is not negative, the
power is `± c ^ n · 10 ^ (e · n)` at every scale, with the sign of the base if `n` is odd, and
without one otherwise; and powers of one base can be multiplied by adding their exponents.  If `n`
is negative and the base is not zero, the power is the exact value rounded to the scale. -/
theorem power_whole {s : Bool} {c : Nat} {e : Int} (h : ar.Admits (finite s c e) exponent n)
    (scale : Int) :
    (0 ≤ n →
      ∃ d, ar.power (finite s c e) exponent scale = .ok d ∧
        d = finite (s && n % 2 = 1) (c ^ n.toNat) (e * n) ∧ d.toRat = (finite s c e).toRat ^ n) ∧
      (0 ≤ n → ∀ (other sum : Decimal) (m : Int), 0 ≤ m → ar.Admits (finite s c e) other m →
        ar.Admits (finite s c e) sum (n + m) → ∀ scale' scale'' : Int,
        ∃ p q r, ar.power (finite s c e) exponent scale = .ok p ∧
          ar.power (finite s c e) other scale' = .ok q ∧ p.mul q = .ok r ∧
          ar.power (finite s c e) sum scale'' = .ok r) ∧
      (n < 0 → c ≠ 0 →
        ∃ d, ar.power (finite s c e) exponent scale = .ok d ∧
          d.RoundedTo ((finite s c e).toRat ^ n) scale) := by
  refine ⟨fun hn ↦ ?_, fun hn other sum m hm hother hsum scale' scale'' ↦ ?_, fun hn hc ↦ ?_⟩
  · obtain ⟨k, rfl⟩ := Int.eq_ofNat_of_zero_le hn
    refine ⟨_, h.power_of_nonneg hn scale, ?_, ?_⟩
    · have hparity : (k % 2 = 1) = ((k : Int) % 2 = 1) := by
        rw [eq_iff_iff]
        omega
      simp only [exactPower, Int.toNat_natCast, hparity]
    · rw [(exactPower_spec h.base_finite _).2, Int.toNat_natCast, zpow_natCast]
  · refine ⟨_, _, _, h.power_of_nonneg hn scale, hother.power_of_nonneg hm scale',
      exactPower_mul h.base_finite _ _, ?_⟩
    rw [hsum.power_of_nonneg (Int.add_nonneg hn hm) scale'', Int.toNat_add hn hm]
  · exact h.exists_roundedTo hn (fun hzero ↦ hc (toRat_eq_zero_iff.1 hzero)) scale

/-- The powers of `-1.50` with the exponents `3.0`, `0.2E+1`, `5` and `-30E-1`. -/
theorem power_whole_minusThreeHalves :
    (Settings.standard.arithmetic .native).Admits (finite true 150 (-2)) (finite false 30 (-1)) 3 ∧
      (Settings.standard.arithmetic .native).Admits (finite true 150 (-2)) (finite false 2 0) 2 ∧
      (Settings.standard.arithmetic .native).Admits (finite true 150 (-2)) (finite false 5 0) 5 ∧
      (Settings.standard.arithmetic .native).Admits (finite true 150 (-2)) (finite true 30 (-1))
        (-3) ∧
      (Settings.standard.arithmetic .native).power (finite true 150 (-2)) (finite false 30 (-1)) 0 =
        .ok (finite true 3375000 (-6)) ∧
      (∃ q r, (Settings.standard.arithmetic .native).power (finite true 150 (-2))
          (finite false 2 0) 1 = .ok q ∧
        (finite true 3375000 (-6)).mul q = .ok r ∧
        (Settings.standard.arithmetic .native).power (finite true 150 (-2)) (finite false 5 0) 2 =
          .ok r) ∧
      ∃ d, (Settings.standard.arithmetic .native).power (finite true 150 (-2))
          (finite true 30 (-1)) 4 = .ok d ∧
        d.RoundedTo ((finite true 150 (-2)).toRat ^ (-3 : Int)) 4 := by
  have hthree : (Settings.standard.arithmetic .native).Admits (finite true 150 (-2))
      (finite false 30 (-1)) 3 :=
    ⟨rfl, rfl, by rw [toRat_finite]; norm_num [signed], by decide, 15, by decide +kernel, by decide⟩
  have htwo : (Settings.standard.arithmetic .native).Admits (finite true 150 (-2))
      (finite false 2 0) 2 :=
    ⟨rfl, rfl, by rw [toRat_finite]; norm_num [signed], by decide, 10, by decide +kernel, by decide⟩
  have hfive : (Settings.standard.arithmetic .native).Admits (finite true 150 (-2))
      (finite false 5 0) 5 :=
    ⟨rfl, rfl, by rw [toRat_finite]; norm_num [signed], by decide, 25, by decide +kernel, by decide⟩
  have hnegative : (Settings.standard.arithmetic .native).Admits (finite true 150 (-2))
      (finite true 30 (-1)) (-3) :=
    ⟨rfl, rfl, by rw [toRat_finite]; norm_num [signed], by decide, 15, by decide +kernel, by decide⟩
  obtain ⟨hexact, hproduct, -⟩ := power_whole hthree 0
  obtain ⟨d, hd, hwritten, -⟩ := hexact (by decide)
  obtain rfl : d = finite true 3375000 (-6) := hwritten.trans (by decide +kernel)
  obtain ⟨p, q, r, hp, hq, hr, hsum⟩ :=
    hproduct (by decide) (finite false 2 0) (finite false 5 0) 2 (by decide) htwo hfive 1 2
  obtain rfl := Except.ok.inj (hd.symm.trans hp)
  exact ⟨hthree, htwo, hfive, hnegative, hd, ⟨q, r, hq, hr, hsum⟩,
    (power_whole hnegative 4).2.2 (by decide) (by decide)⟩

/-- With the exponent zero, zero has the power one as well. -/
example : exactPower (finite true 0 (-2)) 0 = finite false 1 0 := rfl

end Formula.Arithmetic
