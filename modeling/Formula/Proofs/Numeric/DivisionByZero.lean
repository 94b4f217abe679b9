import Formula.Proofs.Numeric.Power

/-!
# Division by zero

A division by zero has a code of its own, and an operator reports it for nothing else
(`DividesByZero`).  A quotient does so exactly if the divisor is a zero, whatever its sign and its
exponent are.  A negative power of zero does so exactly if it is within the bounds of exact powers.

The second condition asks for more than a whole exponent within the bound.  The estimated size has
to be within its bound too, and the estimate counts the zeros that the exponent of the base stands
for, although the number is zero all the same.  So there are zeros whose negative powers are left to
the machine, and the machine does not speak of a division by zero (`not_dividesByZero_tenPlaces`).

`Operator.dividesByZero_apply_iff` is the main result.
-/

set_option autoImplicit false

-- Powers are those of the core library.
attribute [local instance (high)] instPowNat

namespace Formula

open Decimal Arithmetic

/-- The outcome is a failure with the code of a division by zero. -/
def DividesByZero (x : Except Failure Decimal) : Prop :=
  ∃ f, x = .error f ∧ f.code? = some "DIV0"

theorem dividesByZero_divisionByZero : DividesByZero (.error .divisionByZero) := ⟨_, rfl, rfl⟩

theorem not_dividesByZero_ok (d : Decimal) : ¬ DividesByZero (.ok d) := by
  rintro ⟨f, h, -⟩
  cases h

variable {ar : Arithmetic} {a b : Decimal} {scale : Int}

/-- **A quotient divides by zero exactly if the divisor is zero.** -/
theorem dividesByZero_divide_iff (ha : a.isFinite) (hb : b.isFinite) :
    DividesByZero (a.divide b scale) ↔ b.toRat = 0 := by
  by_cases h : b.toRat = 0
  · rw [divide_zero ((isZero_iff hb).2 h)]
    exact iff_of_true dividesByZero_divisionByZero h
  · obtain ⟨d, hd, -⟩ := divide_spec ha hb h scale
    rw [hd]
    exact iff_of_false (not_dividesByZero_ok d) h

/-- The machine never reports a division by zero. -/
theorem not_dividesByZero_roundedPower : ¬ DividesByZero (ar.roundedPower a b scale) := by
  obtain ⟨d, hd, -⟩ | ⟨cause, hcause⟩ := @roundedPower_cases ar a b scale
  · rw [hd]
    exact not_dividesByZero_ok d
  · rw [hcause]
    rintro ⟨f, h, hcode⟩
    cases h
    simp [Failure.code?] at hcode

theorem Arithmetic.Admits.dividesByZero_iff {n : Int} (h : ar.Admits a b n) :
    DividesByZero (ar.power a b scale) ↔ a.toRat = 0 ∧ n < 0 := by
  by_cases hn : 0 ≤ n
  · rw [h.power_of_nonneg hn]
    exact iff_of_false (not_dividesByZero_ok _) fun hneg ↦ by omega
  · have hneg : n < 0 := not_le.1 hn
    by_cases hzero : a.toRat = 0
    · rw [h.power_eq, wholePower, if_neg hn, if_pos ((isZero_iff h.base_finite).2 hzero)]
      exact iff_of_true dividesByZero_divisionByZero ⟨hzero, hneg⟩
    · obtain ⟨d, hd, -⟩ := h.exists_roundedTo hneg hzero scale
      rw [hd]
      exact iff_of_false (not_dividesByZero_ok d) fun hboth ↦ hzero hboth.1

/-- **A power divides by zero exactly if it is a negative power of zero within the bounds.** -/
theorem dividesByZero_power_iff (ha : a.isFinite) (hb : b.isFinite) :
    DividesByZero (ar.power a b scale) ↔ a.toRat = 0 ∧ ∃ n < 0, ar.Admits a b n := by
  cases hexact : ar.isExact a b with
  | true =>
    obtain ⟨n, hn⟩ := (isExact_iff_exists_admits ha hb).1 hexact
    rw [hn.dividesByZero_iff]
    refine and_congr_right fun _ ↦ ⟨fun hneg ↦ ⟨n, hneg, hn⟩, ?_⟩
    rintro ⟨m, hneg, hm⟩
    obtain rfl : n = m := by exact_mod_cast hn.toRat_eq.symm.trans hm.toRat_eq
    exact hneg
  | false =>
    rw [power_of_not_isExact ha hexact]
    refine iff_of_false not_dividesByZero_roundedPower ?_
    rintro ⟨-, n, -, hn⟩
    rw [(isExact_iff_exists_admits ha hb).2 ⟨n, hn⟩] at hexact
    cases hexact

/-- **Operators report a division by zero for nothing else.**  On finite operands, however they are
written, and at every scale: a quotient has the code of a division by zero exactly if the divisor is
zero; a power has it exactly if it is a negative power of zero whose exponent denotes a whole number
within the bound, and whose estimated size is within its bound; and sums, differences and products
never fail. -/
theorem Operator.dividesByZero_apply_iff (ha : a.isFinite) (hb : b.isFinite) (scale : Int) :
    (DividesByZero (Operator.divide.apply ar a b scale) ↔ b.toRat = 0) ∧
      (DividesByZero (Operator.power.apply ar a b scale) ↔
        a.toRat = 0 ∧ ∃ n : Int, n < 0 ∧ b.toRat = n ∧ (n.natAbs : Int) ≤ ar.maxExactExponent ∧
          ∃ k, powerDigits a n = .ok k ∧ (k : Int) ≤ ar.maxResultDigits) ∧
      ∀ op : Operator, op ≠ .divide → op ≠ .power →
        ∃ d, op.apply ar a b scale = .ok d ∧ d.isFinite := by
  refine ⟨dividesByZero_divide_iff ha hb, ?_, fun op hdivide hpower ↦ ?_⟩
  · rw [Operator.apply, dividesByZero_power_iff ha hb]
    refine and_congr_right fun _ ↦ exists_congr fun n ↦ and_congr_right fun _ ↦ ?_
    exact ⟨fun h ↦ ⟨h.toRat_eq, h.limit, h.size⟩,
      fun ⟨hvalue, hlimit, hsize⟩ ↦ ⟨ha, hb, hvalue, hlimit, hsize⟩⟩
  · cases op with
    | plus => exact isOk_add ha hb
    | minus => exact isOk_sub ha hb
    | times => exact isOk_mul ha hb
    | divide => exact absurd rfl hdivide
    | power => exact absurd rfl hpower

/-- One of the ways to write the exponent. -/
theorem toRat_minusTenThousand : (finite true 1 4).toRat = (-10000 : Int) := by
  rw [toRat_finite]
  norm_num [signed]

/-- Zero with nine places has the power `-1E+4`, which is just within the bounds. -/
theorem Operator.dividesByZero_apply_ninePlaces :
    (finite true 0 (-9)).isFinite ∧ (finite true 1 4).isFinite ∧
      DividesByZero (Operator.power.apply (Settings.standard.arithmetic .native)
        (finite true 0 (-9)) (finite true 1 4) 10) ∧
      DividesByZero (Operator.divide.apply (Settings.standard.arithmetic .native)
        (finite true 1 4) (finite true 0 (-9)) 10) ∧
      ∃ d, Operator.times.apply (Settings.standard.arithmetic .native)
        (finite true 0 (-9)) (finite true 1 4) 10 = .ok d ∧ d.isFinite := by
  have hzero : (finite true 0 (-9)).toRat = 0 := toRat_eq_zero_iff.2 rfl
  obtain ⟨-, hpower, hexact⟩ := @Operator.dividesByZero_apply_iff
    (Settings.standard.arithmetic .native) (finite true 0 (-9)) (finite true 1 4) rfl rfl 10
  obtain ⟨hquotient, -, -⟩ := @Operator.dividesByZero_apply_iff
    (Settings.standard.arithmetic .native) (finite true 1 4) (finite true 0 (-9)) rfl rfl 10
  have hsize : powerDigits (finite true 0 (-9)) (-10000) = .ok 100000 := by decide +kernel
  exact ⟨rfl, rfl,
    hpower.2 ⟨hzero, -10000, by decide, toRat_minusTenThousand, by decide, _, hsize, by decide⟩,
    hquotient.2 hzero, hexact .times (by decide) (by decide)⟩

/-- Zero with ten places has not: the same power is no division by zero to the operator. -/
theorem not_dividesByZero_tenPlaces :
    (finite false 0 (-10)).toRat = 0 ∧ (finite true 1 4).toRat = (-10000 : Int) ∧
      (((-10000 : Int).natAbs : Nat) : Int) ≤
        (Settings.standard.arithmetic .native).maxExactExponent ∧
      ¬ DividesByZero (Operator.power.apply (Settings.standard.arithmetic .native)
        (finite false 0 (-10)) (finite true 1 4) 10) := by
  refine ⟨toRat_eq_zero_iff.2 rfl, toRat_minusTenThousand, by decide, fun h ↦ ?_⟩
  obtain ⟨-, n, -, hn⟩ := (dividesByZero_power_iff rfl rfl).1 h
  obtain rfl : n = -10000 := by exact_mod_cast hn.toRat_eq.symm.trans toRat_minusTenThousand
  obtain ⟨k, hk, hle⟩ := hn.size
  have hsize : powerDigits (finite false 0 (-10)) (-10000) = .ok 110000 := by decide +kernel
  obtain rfl := Except.ok.inj (hk.symm.trans hsize)
  exact absurd hle (by decide)

end Formula
