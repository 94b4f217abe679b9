import Formula.Decimal.Exact
import Mathlib.Algebra.Order.Field.Power
import Mathlib.Algebra.Order.Floor.Semifield
import Mathlib.Data.Rat.Floor
import Mathlib.Tactic.FieldSimp
import Mathlib.Tactic.Linarith
import Mathlib.Tactic.NormNum
import Mathlib.Tactic.Positivity
import Mathlib.Tactic.Ring

/-!
# The numbers that decimals denote

A decimal is written in one way, and its number can be written in many: `2`, `2.0` and `2.00` are
different decimals.  `Decimal.toRat` is the number, and `Decimal.Equal` says that two decimals
denote the same one.

The exact operations are those of the numbers: `add_spec`, `sub_spec` and `mul_spec`.  The rounded
ones are in `Formula.Proofs.Numeric.Rounding`.
-/

set_option autoImplicit false

-- Powers are those of the core library.
attribute [local instance (high)] instPowNat

namespace Formula.Decimal

/-- The number that a finite decimal denotes. -/
def toRat : Decimal → ℚ
  | finite s c e => signed s c * 10 ^ e
  | _ => 0

/-- Two finite decimals denote the same number. -/
structure Equal (d d' : Decimal) : Prop where
  left : d.isFinite
  right : d'.isFinite
  toRat_eq : d.toRat = d'.toRat

theorem Equal.refl {d : Decimal} (h : d.isFinite) : Equal d d := ⟨h, h, rfl⟩

/-! ## Signs -/

theorem toRat_finite (s : Bool) (c : Nat) (e : Int) :
    (finite s c e).toRat = signed s c * 10 ^ e := rfl

/-- A whole number is its absolute value with its sign. -/
theorem signed_natAbs (n : Int) : signed (n < 0) n.natAbs = n := by
  rw [signed]
  by_cases h : n < 0
  · rw [if_pos (decide_eq_true h)]
    omega
  · rw [if_neg (by simpa using h)]
    omega

theorem signed_zero (s : Bool) : signed s 0 = 0 := by cases s <;> rfl

theorem signed_not (s : Bool) (c : Nat) : signed (!s) c = -signed s c := by
  cases s <;> simp [signed]

theorem signed_mul (s t : Bool) (c d : Nat) :
    signed (s != t) (c * d) = signed s c * signed t d := by
  cases s <;> cases t <;> simp [signed]

/-- A natural factor leaves the sign alone. -/
theorem signed_mul_natCast (s : Bool) (c n : Nat) : (signed s (c * n) : ℚ) = signed s c * n := by
  cases s <;> simp [signed]

theorem toRat_negate (d : Decimal) : d.negate.toRat = -d.toRat := by
  cases d with
  | finite s c e => rw [negate, toRat_finite, toRat_finite, signed_not, Int.cast_neg, neg_mul]
  | infinity => simp [negate, toRat]
  | nan => simp [negate, toRat]

theorem isFinite_negate (d : Decimal) : d.negate.isFinite = d.isFinite := by cases d <;> rfl

theorem ten_zpow_pos (e : Int) : (0 : ℚ) < 10 ^ e := zpow_pos (by norm_num) e

theorem abs_toRat (s : Bool) (c : Nat) (e : Int) : |(finite s c e).toRat| = c * 10 ^ e := by
  rw [toRat_finite, abs_mul, abs_of_pos (ten_zpow_pos e)]
  cases s <;> simp [signed]

/-- A finite decimal denotes zero exactly if its coefficient is zero. -/
theorem toRat_eq_zero_iff {s : Bool} {c : Nat} {e : Int} : (finite s c e).toRat = 0 ↔ c = 0 := by
  rw [← abs_eq_zero, abs_toRat, mul_eq_zero, or_iff_left (ten_zpow_pos e).ne', Nat.cast_eq_zero]

theorem isZero_iff {d : Decimal} (h : d.isFinite) : d.isZero ↔ d.toRat = 0 := by
  cases d with
  | finite s c e => rw [toRat_eq_zero_iff, isZero, decide_eq_true_eq]
  | infinity => cases h
  | nan => cases h

theorem Equal.isZero_eq {d d' : Decimal} (h : Equal d d') : d.isZero = d'.isZero := by
  rw [Bool.eq_iff_iff, isZero_iff h.left, isZero_iff h.right, h.toRat_eq]

/-- The sign of a number other than zero is that of the decimal. -/
theorem negative_eq_of_ne_zero {s : Bool} {c : Nat} {e : Int} (h : (finite s c e).toRat ≠ 0) :
    s = decide ((finite s c e).toRat < 0) := by
  have hc : (0 : ℚ) < c := by
    rw [Ne, toRat_eq_zero_iff] at h
    exact_mod_cast Nat.pos_of_ne_zero h
  have hpos := mul_pos hc (ten_zpow_pos e)
  rw [toRat_finite]
  cases s with
  | false => simpa [signed] using hpos.le
  | true => simpa [signed] using hpos

/-! ## Exact operations -/

/-- Zeros at the end of the coefficient stand for a larger exponent. -/
theorem cast_mul_ten_pow (c : ℚ) (k : Nat) (e : Int) :
    c * (10 ^ k : Nat) * (10 : ℚ) ^ e = c * 10 ^ (e + k) := by
  rw [zpow_add₀ (by norm_num), zpow_natCast, Nat.cast_pow]
  push_cast
  ring

theorem rescale_mul_zpow {n e low : Int} (h : low ≤ e) :
    (rescale n e low : ℚ) * 10 ^ low = n * 10 ^ e := by
  have hshift : low + ((e - low).toNat : Int) = e := by omega
  rw [rescale, Int.cast_mul]
  have hcast : (((10 : Int) ^ (e - low).toNat : Int) : ℚ) = ((10 ^ (e - low).toNat : Nat) : ℚ) := by
    push_cast
    rfl
  rw [hcast, cast_mul_ten_pow, hshift]

/-- **The sum denotes the sum.** -/
theorem add_spec {a b : Decimal} (ha : a.isFinite) (hb : b.isFinite) :
    ∃ d, a.add b = .ok d ∧ d.isFinite ∧ d.toRat = a.toRat + b.toRat := by
  match a, b, ha, hb with
  | finite s c e, finite t d f, _, _ =>
    refine ⟨_, rfl, ?_⟩
    have hsum : ((rescale (signed s c) e (min e f) + rescale (signed t d) f (min e f) : Int) : ℚ) *
        10 ^ min e f = (finite s c e).toRat + (finite t d f).toRat := by
      rw [Int.cast_add, add_mul, rescale_mul_zpow (min_le_left e f),
        rescale_mul_zpow (min_le_right e f), toRat_finite, toRat_finite]
    generalize rescale (signed s c) e (min e f) + rescale (signed t d) f (min e f) = sum at hsum ⊢
    split
    · rename_i hzero
      refine ⟨rfl, ?_⟩
      rw [← hsum, hzero, toRat_finite, signed_zero]
    · refine ⟨rfl, ?_⟩
      rw [← hsum, toRat_finite, signed_natAbs]

/-- **The difference denotes the difference.** -/
theorem sub_spec {a b : Decimal} (ha : a.isFinite) (hb : b.isFinite) :
    ∃ d, a.sub b = .ok d ∧ d.isFinite ∧ d.toRat = a.toRat - b.toRat := by
  obtain ⟨d, hd, hfinite, hvalue⟩ := add_spec ha (isFinite_negate b ▸ hb : b.negate.isFinite = true)
  exact ⟨d, hd, hfinite, by rw [hvalue, toRat_negate, sub_eq_add_neg]⟩

/-- **The product denotes the product.** -/
theorem mul_spec {a b : Decimal} (ha : a.isFinite) (hb : b.isFinite) :
    ∃ d, a.mul b = .ok d ∧ d.isFinite ∧ d.toRat = a.toRat * b.toRat := by
  match a, b, ha, hb with
  | finite s c e, finite t d f, _, _ =>
    refine ⟨_, rfl, rfl, ?_⟩
    rw [toRat_finite, toRat_finite, toRat_finite, signed_mul, Int.cast_mul,
      zpow_add₀ (by norm_num)]
    ring

end Formula.Decimal
