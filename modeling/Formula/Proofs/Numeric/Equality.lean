import Formula.Proofs.Numeric.Operators
import Formula.Settings

/-!
# How far operators respect equality

Equal numbers can be written in many ways, and what an operator makes of them should not depend on
the way.  It never does for `+`, `-`, `*` and `/`, and for the power it does not as long as both
powers are computed exactly, or both by the machine (`Operator.apply_equal`).

That condition is not empty.  Whether a power is computed exactly is decided by an estimate of its
size that counts the digits of the base as they are written, together with the zeros that its
exponent stands for.  The zeros of a number that is zero are counted as well, so of two zeros one
can be too large to be raised to a power that the other one has (`Operator.not_apply_equal`).
-/

set_option autoImplicit false

namespace Formula

open Decimal

/-- **Operators respect equality**, if powers are computed in the same way: of equal operands all
operators make equal numbers, or fail for the same reason. -/
theorem Operator.apply_equal {ar : Arithmetic} (op : Operator) {a a' b b' : Decimal}
    (ha : a.Equal a') (hb : b.Equal b')
    (hpower : op = .power →
      ar.elementary.IgnoresZeroSigns ∧ ar.isExact a b = ar.isExact a' b') (scale : Int) :
    Agree (op.apply ar a b scale) (op.apply ar a' b' scale) := by
  refine Operator.apply_agree ha hb fun hop ↦ ?_
  obtain ⟨hzero, hexact⟩ := hpower hop
  exact power_agree hzero ha hb hexact scale

namespace Calculator

/-- A machine that knows the sine of a zero and the roots of a zero. -/
def zeroMachine : Elementary where
  sin x := x
  pow _ _ := .ofPattern false 0

theorem ignoresZeroSigns_zeroMachine : zeroMachine.IgnoresZeroSigns :=
  ⟨fun _ _ hx hy ↦ .inr ⟨hx, hy⟩, fun _ _ _ _ _ _ ↦ .inl (.inl rfl)⟩

end Calculator

/-- The square root of two zeros, each of the operands written in two ways. -/
theorem Operator.apply_equal_zeroRoot :
    Agree
      (Operator.power.apply (Settings.standard.arithmetic Calculator.zeroMachine)
        (finite true 0 0) (finite false 5 (-1)) 10)
      (Operator.power.apply (Settings.standard.arithmetic Calculator.zeroMachine)
        (finite false 0 (-2)) (finite false 50 (-2)) 10) :=
  Operator.apply_equal .power
    ⟨rfl, rfl, by rw [toRat_eq_zero_iff.2 rfl, toRat_eq_zero_iff.2 rfl]⟩
    ⟨rfl, rfl, by rw [toRat_finite, toRat_finite]; norm_num [signed]⟩
    (fun _ ↦ ⟨Calculator.ignoresZeroSigns_zeroMachine, by decide +kernel⟩) 10

/-! ## Powers of zeros -/

section

variable (elementary : Elementary) (scale : Int)

theorem integralValue_zeroPower :
    (finite true 10000 0).integralValue 10000 = some (-10000) := by decide +kernel

/-- The zeros that the exponent of the base stands for are counted, so the machine has to do it. -/
theorem power_zeroPower : (Settings.standard.arithmetic elementary).power (finite false 0 20)
    (finite true 10000 0) scale = (Settings.standard.arithmetic elementary).roundedPower
      (finite false 0 20) (finite true 10000 0) scale := by
  refine power_of_not_isExact rfl ?_ scale
  have hcount : Digits.count 0 = 1 := by decide +kernel
  have hlarge : ¬ (((1 + 20) * 10000 : Nat) : Int) ≤ 100000 := by decide
  rw [← Bool.not_eq_true, isExact_iff_of_integralValue integralValue_zeroPower, hcount]
  exact hlarge

/-- The plain form of the base has no zeros but itself. -/
theorem power_plainForm_zeroPower : (Settings.standard.arithmetic elementary).power
    (finite false 0 0) (finite true 10000 0) scale = .error .divisionByZero := by
  have hcount : Digits.count 0 = 1 := by decide +kernel
  have hsmall : (((1 + 0) * 10000 : Nat) : Int) ≤ 100000 := by decide
  have hexact : (Settings.standard.arithmetic elementary).isExact (finite false 0 0)
      (finite true 10000 0) := by
    rw [isExact_iff_of_integralValue integralValue_zeroPower, hcount]
    exact hsmall
  obtain ⟨n, hn, hpower⟩ := power_of_isExact hexact scale
  obtain rfl := Option.some.inj (integralValue_zeroPower.symm.trans hn)
  exact hpower

end

/-- Without the condition equality is not respected: `0 ^ -10000` is a division by zero, and
`0E+20 ^ -10000` is not. -/
theorem Operator.not_apply_equal :
    (finite false 0 20).Equal (finite false 0 0) ∧
      (finite true 10000 0).Equal (finite true 10000 0) ∧
      ¬ Agree
        (Operator.power.apply (Settings.standard.arithmetic .native) (finite false 0 20)
          (finite true 10000 0) 10)
        (Operator.power.apply (Settings.standard.arithmetic .native) (finite false 0 0)
          (finite true 10000 0) 10) := by
  refine ⟨⟨rfl, rfl, ?_⟩, .refl rfl, fun hagree ↦ ?_⟩
  · rw [toRat_eq_zero_iff.2 rfl, toRat_eq_zero_iff.2 rfl]
  · rw [Operator.apply, Operator.apply, power_zeroPower, power_plainForm_zeroPower] at hagree
    rcases @roundedPower_cases (Settings.standard.arithmetic .native) (finite false 0 20)
      (finite true 10000 0) 10 with ⟨d, hd, -⟩ | ⟨cause, hcause⟩
    · rw [hd] at hagree
      cases hagree
    · rw [hcause] at hagree
      cases hagree

end Formula
