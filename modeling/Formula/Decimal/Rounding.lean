import Formula.Decimal.Basic
import Formula.Failure

/-!
# Rounding

Everything that is rounded is rounded the way it is taught at school: to the nearest, and a half
away from zero.  `roundDiv` does it for a quotient of natural numbers, and the operations on
decimals reduce to it, so that each rounds once and from the exact value.

* `roundTo d places` — `d` with exactly `places` digits after the point, padded with zeros or
  rounded; a negative number of places rounds to tens, hundreds and so on.
* `stripZeros d` — the same number with no trailing zero in its coefficient.
* `divide a b scale` — the quotient with at most `scale` digits after the point, without trailing
  zeros.  Zero has no sign here.
-/

set_option autoImplicit false

-- Powers are those of the core library.
attribute [local instance (high)] instPowNat

namespace Formula.Decimal

/-- The natural number nearest to `n / d`; a half goes up. -/
def roundDiv (n d : Nat) : Nat := (2 * n + d) / (2 * d)

/-- The unit of the last of `places` digits after the point. -/
def unit (places : Int) : Decimal := finite false 1 (-places)

/-- A decimal with exactly `places` digits after the point. -/
def roundTo (d : Decimal) (places : Int) : Except Failure Decimal :=
  match d with
  | nan s => .ok (nan s)
  | infinity _ => .error .invalidOperation
  | finite s c e =>
    if -places ≤ e then .ok (finite s (c * 10 ^ (e + places).toNat) (-places))
    else .ok (finite s (roundDiv c (10 ^ (-places - e).toNat)) (-places))

/-- The coefficient without its trailing zeros, and the exponent that makes up for them. -/
def stripCoefficient (c : Nat) (e : Int) : Nat × Int :=
  if 0 < c ∧ c % 10 = 0 then stripCoefficient (c / 10) (e + 1) else (c, e)
termination_by c

/-- No trailing zero is left. -/
theorem stripCoefficient_mod {c : Nat} (e : Int) (hc : 0 < c) :
    (stripCoefficient c e).1 % 10 ≠ 0 ∧ 0 < (stripCoefficient c e).1 := by
  fun_induction stripCoefficient c e with
  | case1 c e h ih => exact ih (by omega)
  | case2 c e h => exact ⟨fun h' ↦ h ⟨hc, h'⟩, hc⟩

/-- What is taken off the coefficient is a power of ten, and the exponent makes up for it. -/
theorem stripCoefficient_shift (c : Nat) (e : Int) :
    ∃ n : Nat, (stripCoefficient c e).2 = e + n ∧ c = (stripCoefficient c e).1 * 10 ^ n := by
  fun_induction stripCoefficient c e with
  | case1 c e h ih =>
    obtain ⟨n, he, hc⟩ := ih
    refine ⟨n + 1, by omega, ?_⟩
    rw [Nat.pow_succ, ← Nat.mul_assoc, ← hc]
    omega
  | case2 c e h => exact ⟨0, by simp, by simp⟩

/-- The number without trailing zeros in its coefficient; a zero keeps its sign. -/
def stripZeros : Decimal → Decimal
  | finite s c e => if c = 0 then finite s 0 0 else
    let (c', e') := stripCoefficient c e
    finite s c' e'
  | d => d

/-- The quotient of two decimals, with at most `scale` digits after the point. -/
def divide (a b : Decimal) (scale : Int) : Except Failure Decimal :=
  if b.isZero then .error .divisionByZero
  else match a, b with
    | infinity _, _ => .error .ratioOfInfinity
    | nan _, _ => .error .ratioOfNaN
    | finite .., infinity _ => .error .ratioOfInfinity
    | finite .., nan _ => .error .ratioOfNaN
    | finite s c e, finite t d f =>
      let shift := e - f + scale
      let quotient := roundDiv (c * 10 ^ shift.toNat) (d * 10 ^ (-shift).toNat)
      .ok (stripZeros (finite (s != t && quotient != 0) quotient (-scale)))

end Formula.Decimal
