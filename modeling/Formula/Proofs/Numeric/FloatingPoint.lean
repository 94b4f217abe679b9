import Formula.Proofs.Numeric.Places
import Formula.Proofs.Outcome

/-!
# Floating-point results

A result of the machine comes back as a decimal.  Whatever its bits are, it is rounded once, from
its exact value, and only digits beyond the scale are dropped: a number with no more places than
that is kept as it is, and written without trailing zeros.

* `Binary64.toRat x` — the number that the bits of a finite number stand for, normal or subnormal.
* `toRat_toDecimal` — the exact decimal of a floating-point number denotes that number.
* `exists_int_iff` — how many places a decimal without trailing zeros has.
* `Arithmetic.ofBinary64_rounded` — the main result.
-/

set_option autoImplicit false

-- Powers are those of the core library.
attribute [local instance (high)] instPowNat

namespace Formula

open Decimal

/-! ## The number that the bits stand for -/

namespace Binary64

/-- The number that a finite floating-point number stands for: a fraction between one and two and a
power of two, or, if all bits of the exponent are zero, a fraction below one and the smallest
power. -/
def toRat (x : Binary64) : ℚ :=
  (if x.isNegative then -1 else 1) *
    if x.exponentField = 0 then x.fractionField / 0x10000000000000 * (2 : ℚ) ^ (-1022 : Int)
    else (1 + x.fractionField / 0x10000000000000) * (2 : ℚ) ^ ((x.exponentField : Int) - 1023)

theorem two_zpow_52 : (2 : ℚ) ^ (52 : Int) = 0x10000000000000 := by norm_num

/-- It is the whole significand and the power of two that goes with it. -/
theorem toRat_eq (x : Binary64) : x.toRat = signed x.isNegative x.significand * 2 ^ x.shift := by
  have hsigned : (signed x.isNegative x.significand : ℚ) =
      (if x.isNegative then -1 else 1) * x.significand := by
    cases x.isNegative <;> simp [signed]
  rw [toRat, hsigned, mul_assoc]
  congr 1
  rw [significand]
  split
  · rename_i hzero
    have hshift : (-1022 : Int) = 52 + x.shift := by
      rw [shift, hzero]
      decide
    rw [hshift, zpow_add₀ (by norm_num), two_zpow_52]
    field_simp
  · have hshift : (x.exponentField : Int) - 1023 = 52 + x.shift := by
      rw [shift]
      omega
    rw [hshift, zpow_add₀ (by norm_num), two_zpow_52]
    push_cast
    field_simp

/-- **The exact decimal of a floating-point number denotes that number.** -/
theorem toRat_toDecimal (x : Binary64) : x.toDecimal.toRat = x.toRat := by
  rw [toRat_eq, toDecimal]
  split
  · rename_i h
    have hshift : (2 : ℚ) ^ x.shift = (2 ^ x.shift.toNat : Nat) := by
      rw [Nat.cast_pow, ← zpow_natCast, Int.toNat_of_nonneg h]
      rfl
    rw [toRat_finite, signed_mul_natCast, hshift, zpow_zero, mul_one]
  · rename_i h
    have hten : (10 : ℚ) ^ x.shift = 5 ^ x.shift * 2 ^ x.shift := by
      rw [← mul_zpow]
      norm_num
    have hfive : ((5 ^ (-x.shift).toNat : Nat) : ℚ) * 5 ^ x.shift = 1 := by
      rw [Nat.cast_pow, ← zpow_natCast, Int.toNat_of_nonneg (by omega), Nat.cast_ofNat,
        ← zpow_add₀ (by norm_num), neg_add_cancel, zpow_zero]
    rw [toRat_finite, signed_mul_natCast, hten, mul_assoc, ← mul_assoc _ ((5 : ℚ) ^ x.shift), hfive,
      one_mul]

end Binary64

/-! ## Places -/

namespace Decimal

theorem toRat_mul_zpow (s : Bool) (c : Nat) (e places : Int) :
    (finite s c e).toRat * 10 ^ places = (finite s c (e + places)).toRat := by
  rw [toRat_finite, toRat_finite, zpow_add₀ (by norm_num), mul_assoc]

theorem eq_mul_zpow_neg {x y : ℚ} {places : Int} (h : x * 10 ^ places = y) :
    x = y * 10 ^ (-places) := by
  rw [zpow_neg, ← h, mul_inv_cancel_right₀ (ten_zpow_pos places).ne']

/-- A decimal has no more places than its exponent says. -/
theorem exists_int_of_le {e places : Int} (h : -places ≤ e) (s : Bool) (c : Nat) :
    ∃ k : Int, (finite s c e).toRat * 10 ^ places = k :=
  ⟨_, (toRat_mul_zpow s c e places).trans (toRat_of_nonneg (by omega) s c)⟩

/-- **Without trailing zeros it has no fewer places either.** -/
theorem exists_int_iff {s : Bool} {c : Nat} {e places : Int} (hc : c % 10 ≠ 0) :
    (∃ k : Int, (finite s c e).toRat * 10 ^ places = k) ↔ -places ≤ e := by
  refine ⟨fun ⟨k, hk⟩ ↦ ?_, fun h ↦ exists_int_of_le h s c⟩
  have habs : (c * 10 ^ e : ℚ) = k.natAbs * 10 ^ (-places) := by
    rw [← abs_toRat s c e, eq_mul_zpow_neg hk, abs_mul, abs_of_pos (ten_zpow_pos _),
      Nat.cast_natAbs, Int.cast_abs]
  exact exponent_le_of_mod_ne_zero hc habs

/-- A whole number is nearest to itself. -/
theorem isNearest_intCast (k : Int) : IsNearest k k := by
  constructor
  · intro m
    rw [sub_self, abs_zero]
    exact abs_nonneg _
  · intro m hm
    rw [sub_self, abs_zero, abs_eq_zero, sub_eq_zero] at hm
    obtain rfl : k = m := by exact_mod_cast hm
    exact le_rfl

/-- The number that a rounded decimal denotes. -/
theorem RoundedAt.exists_isNearest {x : ℚ} {places : Int} {d : Decimal} (h : RoundedAt x places d) :
    ∃ m : Int, IsNearest m (x * 10 ^ places) ∧ d.toRat = m * 10 ^ (-places) := by
  obtain ⟨hnearest⟩ := h
  exact ⟨_, hnearest, toRat_finite ..⟩

end Decimal

/-! ## Results of the machine -/

namespace Arithmetic

variable {x : Binary64}

/-- A result that is not finite is refused. -/
theorem ofBinary64_of_not_isFinite (hx : x.isFinite = false) (scale : Int) :
    ofBinary64 x scale = .error (.math .notFinite) := by
  rw [ofBinary64, hx]
  rfl

/-- Any other is rounded exactly if it has more places than the scale. -/
theorem ofBinary64_of_stripZeros (hx : x.isFinite) {s : Bool} {c : Nat} {e : Int}
    (h : x.toDecimal.stripZeros = finite s c e) (scale : Int) :
    ofBinary64 x scale =
      if scale < -e then (finite s c e).roundTo scale else .ok (finite s c e) := by
  rw [ofBinary64, hx, h]
  rfl

/-- The exact value is written without trailing zeros. -/
theorem exists_stripZeros_toDecimal (x : Binary64) :
    ∃ s c e, x.toDecimal.stripZeros = finite s c e ∧ (finite s c e).toRat = x.toRat ∧
      (x.toRat ≠ 0 → c % 10 ≠ 0) := by
  have hvalue := (toRat_stripZeros x.toDecimal).trans x.toRat_toDecimal
  have hfinite := Binary64.isFinite_toDecimal x
  match x.toDecimal, hfinite, hvalue with
  | finite s c e, _, hvalue =>
    rw [stripZeros] at hvalue ⊢
    split at hvalue
    · rename_i hc
      rw [if_pos hc]
      have hzero := hvalue.symm.trans (toRat_eq_zero_iff.2 rfl)
      exact ⟨_, _, _, rfl, hvalue, fun hne ↦ absurd hzero hne⟩
    · rename_i hc
      rw [if_neg hc]
      exact ⟨_, _, _, rfl, hvalue, fun _ ↦ (stripCoefficient_mod e (Nat.pos_of_ne_zero hc)).1⟩

/-- A finite result is rounded if it has more places than the scale, and exact otherwise. -/
theorem ofBinary64_cases (hx : x.isFinite) (scale : Int) :
    (∃ d, ofBinary64 x scale = .ok d ∧ d.RoundedAt x.toRat scale ∧
        (x.toRat ≠ 0 → ∀ k : Int, x.toRat * 10 ^ scale ≠ k)) ∨
      ∃ d, ofBinary64 x scale = .ok d ∧ d.isFinite ∧ d.toRat = x.toRat ∧
        (∃ k : Int, x.toRat * 10 ^ scale = k) ∧ (x.toRat ≠ 0 → d.Stripped) := by
  obtain ⟨s, c, e, hstrip, hvalue, hdigits⟩ := exists_stripZeros_toDecimal x
  have heq := ofBinary64_of_stripZeros hx hstrip scale
  by_cases hscale : scale < -e
  · obtain ⟨d, hd, hrounded⟩ := exists_roundedAt (show (finite s c e).isFinite from rfl) scale
    rw [if_pos hscale, hd] at heq
    rw [hvalue] at hrounded
    refine .inl ⟨d, heq, hrounded, fun hne k hk ↦ ?_⟩
    rw [← hvalue] at hk
    have hle := (exists_int_iff (hdigits hne)).1 ⟨k, hk⟩
    omega
  · rw [if_neg hscale] at heq
    have hle : -scale ≤ e := by omega
    have hint := exists_int_of_le hle s c
    rw [hvalue] at hint
    exact .inr ⟨_, heq, rfl, hvalue, hint, fun hne ↦ .digits (hdigits hne)⟩

/-- Infinities and values that are not numbers are refused, and nothing else is. -/
theorem ofBinary64_code_iff (x : Binary64) (scale : Int) :
    (∃ f, ofBinary64 x scale = .error f ∧ f.code? = some "MATH_ERROR") ↔
      x.isNaN ∨ x.isInfinite := by
  have hspecial : x.isFinite = false ↔ x.isNaN ∨ x.isInfinite := by
    simp only [Binary64.isFinite, Binary64.isNaN, Binary64.isInfinite]
    grind
  rw [← hspecial]
  cases hx : x.isFinite with
  | false => exact iff_of_true ⟨_, ofBinary64_of_not_isFinite hx scale, rfl⟩ rfl
  | true =>
    refine iff_of_false ?_ (by simp)
    obtain ⟨d, hd, -⟩ | ⟨d, hd, -⟩ := ofBinary64_cases hx scale <;> simp [hd]

/-- **Results of the machine are rounded once, from their exact values.**  For every pattern of bits
and every scale: infinities and values that are not numbers are refused, and nothing else is.  Any
other result is the nearest multiple of the unit of the last place, ties going away from zero.  If
it is not zero, it is written without trailing zeros if it has no more places than the scale, being
exact then, and otherwise with exactly so many places as the scale. -/
theorem ofBinary64_rounded (x : Binary64) (scale : Int) :
    ((∃ f, ofBinary64 x scale = .error f ∧ f.code? = some "MATH_ERROR") ↔
        x.isNaN ∨ x.isInfinite) ∧
      (x.isNaN = false → x.isInfinite = false → ∃ d, ofBinary64 x scale = .ok d ∧ d.isFinite ∧
        (∃ m : Int, IsNearest m (x.toRat * 10 ^ scale) ∧ d.toRat = m * 10 ^ (-scale)) ∧
        (x.toRat ≠ 0 →
          ((∃ k : Int, x.toRat * 10 ^ scale = k) → d.toRat = x.toRat ∧ d.Stripped) ∧
          ((∀ k : Int, x.toRat * 10 ^ scale ≠ k) → d.RoundedAt x.toRat scale))) := by
  refine ⟨ofBinary64_code_iff x scale, fun hnan hinf ↦ ?_⟩
  obtain ⟨d, hd, hrounded, hplaces⟩ | ⟨d, hd, hfinite, hvalue, ⟨k, hk⟩, hstripped⟩ :=
    ofBinary64_cases (Binary64.isFinite_of_not hnan hinf) scale
  · refine ⟨d, hd, hrounded.isFinite, hrounded.exists_isNearest, fun hne ↦ ⟨fun hint ↦ ?_, fun _ ↦
      hrounded⟩⟩
    obtain ⟨k, hk⟩ := hint
    exact absurd hk (hplaces hne k)
  · refine ⟨d, hd, hfinite, ⟨k, hk ▸ isNearest_intCast k, ?_⟩, fun hne ↦
      ⟨fun _ ↦ ⟨hvalue, hstripped hne⟩, fun hall ↦ absurd hk (hall k)⟩⟩
    rw [hvalue, eq_mul_zpow_neg hk]

/-- The number `-2.5` at the scale zero, a tie, and at the scale three, where it is exact; and a
value that is not a number. -/
theorem ofBinary64_rounded_minusFiveHalves :
    (∃ f, ofBinary64 ⟨0xfff0000000000001⟩ 3 = .error f ∧ f.code? = some "MATH_ERROR") ∧
      (⟨0xc004000000000000⟩ : Binary64).isNaN = false ∧
      (⟨0xc004000000000000⟩ : Binary64).isInfinite = false ∧
      (⟨0xc004000000000000⟩ : Binary64).toRat = -5 / 2 ∧
      (∃ d, ofBinary64 ⟨0xc004000000000000⟩ 0 = .ok d ∧ d = finite true 3 0 ∧
        d.RoundedAt (-5 / 2) 0) ∧
      ∃ d, ofBinary64 ⟨0xc004000000000000⟩ 3 = .ok d ∧ d.toRat = -5 / 2 ∧ d.Stripped := by
  have hvalue : (⟨0xc004000000000000⟩ : Binary64).toRat = -5 / 2 := by
    have hnegative : (⟨0xc004000000000000⟩ : Binary64).isNegative = true := by decide
    have hexponent : (⟨0xc004000000000000⟩ : Binary64).exponentField = 1024 := by decide
    have hfraction : (⟨0xc004000000000000⟩ : Binary64).fractionField = 0x4000000000000 := by decide
    rw [Binary64.toRat, hnegative, hexponent, hfraction]
    norm_num
  have hne : (⟨0xc004000000000000⟩ : Binary64).toRat ≠ 0 := by rw [hvalue]; norm_num
  obtain ⟨d, hd, -, -, hplaces⟩ :=
    (ofBinary64_rounded ⟨0xc004000000000000⟩ 0).2 (by decide) (by decide)
  obtain ⟨d', hd', -, -, hplaces'⟩ :=
    (ofBinary64_rounded ⟨0xc004000000000000⟩ 3).2 (by decide) (by decide)
  have hrounded := (hplaces hne).2 fun k hk ↦ by
    have hdouble : ((-5 : Int) : ℚ) = (2 * k : Int) := by
      rw [Int.cast_mul, ← hk, hvalue]
      norm_num
    have : (-5 : Int) = 2 * k := by exact_mod_cast hdouble
    omega
  have hexact := (hplaces' hne).1 ⟨-2500, by rw [hvalue]; norm_num⟩
  rw [hvalue] at hrounded hexact
  have hthree : ofBinary64 ⟨0xc004000000000000⟩ 0 = .ok (finite true 3 0) := by decide +kernel
  exact ⟨(ofBinary64_rounded ⟨0xfff0000000000001⟩ 3).1.2 (.inl (by decide)), by decide, by decide,
    hvalue, ⟨d, hd, Except.ok.inj (hd.symm.trans hthree), hrounded⟩, d', hd', hexact⟩

end Arithmetic

end Formula
