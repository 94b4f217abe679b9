import Formula.Operator
import Formula.Proofs.Numeric.Nearest

/-!
# Operators on equal numbers

Does the outcome of an operator depend on how its operands are written?  `Agree` says that two
outcomes are the same but for that: equal numbers, or the same failure.  Four of the operators give
outcomes that agree on operands that denote the same numbers, and so does the sine.

The power does so as well if it is computed in the same way for both, exactly or by the machine
(`Arithmetic.isExact`).  Which of the two it is depends on an estimate of the size of the result,
and the estimate does look at the way the base is written.

* `Elementary.IgnoresZeroSigns` — what has to be known of the machine: the sign of a zero matters
  for nothing but the sign of the result.
* `exactPower_spec` — the exact power denotes the power.
* `power_agree` — powers that are computed in the same way agree.
* `Operator.apply_agree`, `sine_agree` — the other operators, and the sine.
-/

set_option autoImplicit false

-- Powers are those of the core library.
attribute [local instance (high)] instPowNat

namespace Formula

open Decimal

/-! ## Outcomes -/

/-- The outcomes are equal numbers, or the same failure. -/
inductive Agree : Except Failure Decimal → Except Failure Decimal → Prop
  | ok {d d' : Decimal} : d.Equal d' → Agree (.ok d) (.ok d')
  | error (f : Failure) : Agree (.error f) (.error f)

/-- What two agreeing outcomes lead to agrees, if it does for every two values that they can be. -/
theorem Agree.bind {x x' : Except Failure Decimal} {f f' : Decimal → Except Failure Decimal}
    (h : Agree x x')
    (hf : ∀ d d', x = .ok d → x' = .ok d' → d.Equal d' → Agree (f d) (f' d')) :
    Agree (x.bind f) (x'.bind f') := by
  cases h with
  | ok h => exact hf _ _ rfl rfl h
  | error g => exact .error g

/-- An outcome that is determined by the numbers. -/
theorem Agree.of_spec {x x' : Except Failure Decimal} {q : ℚ}
    (h : ∃ d, x = .ok d ∧ d.isFinite ∧ d.toRat = q)
    (h' : ∃ d, x' = .ok d ∧ d.isFinite ∧ d.toRat = q) : Agree x x' := by
  obtain ⟨d, rfl, hd, hq⟩ := h
  obtain ⟨d', rfl, hd', hq'⟩ := h'
  exact .ok ⟨hd, hd', hq.trans hq'.symm⟩

/-! ## Exact powers -/

theorem signed_pow (s : Bool) (c n : Nat) :
    (signed (s && n % 2 = 1) (c ^ n) : ℚ) = (signed s c : ℚ) ^ n := by
  cases s with
  | false => simp [signed]
  | true =>
    rcases Nat.mod_two_eq_zero_or_one n with h | h
    · have heven : Even n := Nat.even_iff.2 h
      simp [signed, h, heven.neg_pow]
    · have hodd : Odd n := Nat.odd_iff.2 h
      simp [signed, h, hodd.neg_pow]

/-- **The exact power denotes the power.** -/
theorem exactPower_spec {d : Decimal} (hd : d.isFinite) (n : Nat) :
    (Arithmetic.exactPower d n).isFinite ∧ (Arithmetic.exactPower d n).toRat = d.toRat ^ n := by
  match d, hd with
  | finite s c e, _ =>
    refine ⟨rfl, ?_⟩
    rw [Arithmetic.exactPower, toRat_finite, toRat_finite, signed_pow, mul_pow, zpow_mul,
      zpow_natCast]

theorem wholePower_agree {a a' : Decimal} (h : a.Equal a') (n scale : Int) :
    Agree (Arithmetic.wholePower a n scale) (Arithmetic.wholePower a' n scale) := by
  have hpower : ∀ k, (Arithmetic.exactPower a k).Equal (Arithmetic.exactPower a' k) := by
    intro k
    obtain ⟨hfinite, hvalue⟩ := exactPower_spec h.left k
    obtain ⟨hfinite', hvalue'⟩ := exactPower_spec h.right k
    exact ⟨hfinite, hfinite', by rw [hvalue, hvalue', h.toRat_eq]⟩
  unfold Arithmetic.wholePower
  split
  · exact .ok (hpower _)
  · rw [← h.isZero_eq]
    split
    · exact .error _
    · rename_i hzero
      have hne : (Arithmetic.exactPower a n.natAbs).toRat ≠ 0 := by
        rw [(exactPower_spec h.left _).2]
        exact pow_ne_zero _ fun h0 ↦ hzero ((isZero_iff h.left).2 h0)
      obtain ⟨hleft, hright, hvalue⟩ := hpower n.natAbs
      refine .of_spec (divide_spec rfl hleft hne scale) ?_
      rw [hvalue] at hne ⊢
      exact divide_spec rfl hright hne scale

/-! ## The machine -/

/-- The machine does not look at the sign of a zero, except to give a sign to a zero or to an
infinity. -/
structure Elementary.IgnoresZeroSigns (elementary : Elementary) : Prop where
  sin_zero : ∀ x y : Binary64, x.isZero → y.isZero →
    (elementary.sin x).Alike (elementary.sin y)
  pow_zero : ∀ x x' y y' : Binary64, x.Alike x' → y.Alike y' →
    (elementary.pow x y).Alike (elementary.pow x' y') ∨
      (elementary.pow x y).isInfinite ∧ (elementary.pow x' y').isInfinite

namespace Binary64

theorem Alike.isFinite_eq {x y : Binary64} (h : x.Alike y) : x.isFinite = y.isFinite := by
  rcases h with rfl | ⟨hx, hy⟩
  · rfl
  · simp only [isZero, Bool.and_eq_true, decide_eq_true_eq] at hx hy
    simp [isFinite, hx.1, hy.1]

theorem Alike.isInfinite_eq {x y : Binary64} (h : x.Alike y) : x.isInfinite = y.isInfinite := by
  rcases h with rfl | ⟨hx, hy⟩
  · rfl
  · simp only [isZero, Bool.and_eq_true, decide_eq_true_eq] at hx hy
    simp [isInfinite, hx.1, hy.1]

theorem Alike.isNaN_eq {x y : Binary64} (h : x.Alike y) : x.isNaN = y.isNaN := by
  rcases h with rfl | ⟨hx, hy⟩
  · rfl
  · simp only [isZero, Bool.and_eq_true, decide_eq_true_eq] at hx hy
    simp [isNaN, hx.1, hy.1]

theorem Alike.isZero_eq {x y : Binary64} (h : x.Alike y) : x.isZero = y.isZero := by
  rcases h with rfl | ⟨hx, hy⟩
  · rfl
  · rw [hx, hy]

theorem isFinite_of_isZero {x : Binary64} (h : x.isZero) : x.isFinite := by
  simp only [isZero, Bool.and_eq_true, decide_eq_true_eq] at h
  simp [isFinite, h.1]

theorem isFinite_toDecimal (x : Binary64) : x.toDecimal.isFinite := by
  rw [toDecimal]
  split <;> rfl

theorem toRat_toDecimal_of_isZero {x : Binary64} (h : x.isZero) : x.toDecimal.toRat = 0 := by
  simp only [isZero, Bool.and_eq_true, decide_eq_true_eq] at h
  have hsignificand : x.significand = 0 := by rw [significand, if_pos h.1, h.2]
  rw [toDecimal]
  rw [hsignificand]
  split <;> exact toRat_eq_zero_iff.2 (Nat.zero_mul _)

end Binary64

/-- A floating-point result is its exact value, or that value rounded to the scale. -/
theorem ofBinary64_spec {x : Binary64} (hx : x.isFinite) (scale : Int) :
    ∃ d, Arithmetic.ofBinary64 x scale = .ok d ∧ d.isFinite ∧
      (d.toRat = x.toDecimal.toRat ∨ d.toRat = roundHalf x.toDecimal.toRat scale) := by
  have hfinite : x.toDecimal.stripZeros.isFinite := by
    rw [isFinite_stripZeros]
    exact Binary64.isFinite_toDecimal x
  have hvalue := toRat_stripZeros x.toDecimal
  have hnot : ¬ (!x.isFinite) = true := by rw [hx]; decide
  rw [Arithmetic.ofBinary64]
  rw [if_neg hnot]
  dsimp only
  split
  · rename_i s c e hstrip
    split
    · obtain ⟨r, hr, hrfinite, hrvalue⟩ := roundTo_spec hfinite scale
      exact ⟨r, hr, hrfinite, .inr (by rw [hrvalue, hvalue])⟩
    · exact ⟨_, rfl, hfinite, .inl hvalue⟩
  · exact ⟨_, rfl, hfinite, .inl hvalue⟩

theorem roundHalf_zero (places : Int) : roundHalf 0 places = 0 := by
  rw [roundHalf, abs_zero, zero_mul, zero_add, floor_half]
  simp

theorem ofBinary64_agree {x y : Binary64} (h : x.Alike y) (scale : Int) :
    Agree (Arithmetic.ofBinary64 x scale) (Arithmetic.ofBinary64 y scale) := by
  have hzero : ∀ {z : Binary64}, z.isZero → ∃ d, Arithmetic.ofBinary64 z scale = .ok d ∧
      d.isFinite ∧ d.toRat = 0 := by
    intro z hz
    obtain ⟨d, hd, hfinite, hvalue⟩ := ofBinary64_spec (Binary64.isFinite_of_isZero hz) scale
    rw [Binary64.toRat_toDecimal_of_isZero hz, roundHalf_zero, or_self] at hvalue
    exact ⟨d, hd, hfinite, hvalue⟩
  rcases h with rfl | ⟨hx, hy⟩
  · cases hx : x.isFinite with
    | true =>
      obtain ⟨d, hd, hfinite, -⟩ := ofBinary64_spec hx scale
      rw [hd]
      exact .ok (.refl hfinite)
    | false =>
      have hnot : (!x.isFinite) = true := by rw [hx]; rfl
      rw [Arithmetic.ofBinary64, if_pos hnot]
      exact .error _
  · exact .of_spec (hzero hx) (hzero hy)

variable {ar : Arithmetic}

theorem roundedPower_agree (hzero : ar.elementary.IgnoresZeroSigns) {a a' b b' : Decimal}
    (ha : a.Equal a') (hb : b.Equal b') (scale : Int) :
    Agree (ar.roundedPower a b scale) (ar.roundedPower a' b' scale) := by
  have hx := Binary64.ofDecimal_alike ha
  have hy := Binary64.ofDecimal_alike hb
  unfold Arithmetic.roundedPower Arithmetic.floatPower
  dsimp only
  rw [← hx.isFinite_eq, ← hy.isFinite_eq, ← hx.isZero_eq]
  have hpow := hzero.pow_zero _ _ _ _ hx hy
  generalize ar.elementary.pow (.ofDecimal a) (.ofDecimal b) = r at hpow ⊢
  generalize ar.elementary.pow (.ofDecimal a') (.ofDecimal b') = r' at hpow ⊢
  have hnan : r.isNaN = r'.isNaN := by
    rcases hpow with h | ⟨h, h'⟩
    · exact h.isNaN_eq
    · simp only [Binary64.isInfinite, Bool.and_eq_true, decide_eq_true_eq] at h h'
      simp [Binary64.isNaN, h.2, h'.2]
  have hinfinite : r.isInfinite = r'.isInfinite := by
    rcases hpow with h | ⟨h, h'⟩
    · exact h.isInfinite_eq
    · rw [h, h']
  rw [← hnan, ← hinfinite]
  split
  · exact .error _
  · split
    · exact .error _
    · rename_i hfinite
      rcases hpow with h | ⟨h, -⟩
      · exact ofBinary64_agree h scale
      · exact absurd h hfinite

/-- What the machine makes of a power is a number, or one of its own failures. -/
theorem roundedPower_cases (a b : Decimal) (scale : Int) :
    (∃ d, ar.roundedPower a b scale = .ok d ∧ d.isFinite) ∨
      ∃ cause, ar.roundedPower a b scale = .error (.math cause) := by
  unfold Arithmetic.roundedPower Arithmetic.floatPower
  dsimp only
  split
  · exact .inr ⟨.domain, rfl⟩
  · split
    · exact .inr ⟨.range, rfl⟩
    · generalize ar.elementary.pow (.ofDecimal a) (.ofDecimal b) = r
      cases hr : r.isFinite with
      | true =>
        obtain ⟨d, hd, hfinite, -⟩ := ofBinary64_spec hr scale
        exact .inl ⟨d, hd, hfinite⟩
      | false => exact .inr ⟨.notFinite, if_pos (by rw [hr]; rfl)⟩

/-! ## Powers -/

/-- Is the power computed exactly?  The exponent has to be a whole number within the bound, and the
estimated size of the result must not be too large. -/
def Arithmetic.isExact (ar : Arithmetic) (base exponent : Decimal) : Bool :=
  match exponent.integralValue ar.maxExactExponent, base with
  | some n, .finite _ c e => (Digits.count c + e.natAbs) * n.natAbs ≤ ar.maxResultDigits
  | _, _ => false

/-- For a whole exponent within the bound it is a matter of the size. -/
theorem isExact_iff_of_integralValue {exponent : Decimal} {n : Int}
    (hn : exponent.integralValue ar.maxExactExponent = some n) (s : Bool) (c : Nat) (e : Int) :
    ar.isExact (.finite s c e) exponent ↔
      (((Digits.count c + e.natAbs) * n.natAbs : Nat) : Int) ≤ ar.maxResultDigits := by
  unfold Arithmetic.isExact
  rw [hn]
  dsimp only
  rw [decide_eq_true_eq]
  push_cast
  rfl

theorem power_of_isExact {base exponent : Decimal} (h : ar.isExact base exponent) (scale : Int) :
    ∃ n, exponent.integralValue ar.maxExactExponent = some n ∧
      ar.power base exponent scale = Arithmetic.wholePower base n scale := by
  unfold Arithmetic.isExact at h
  split at h
  · rename_i n s c e hn
    refine ⟨n, hn, ?_⟩
    rw [Arithmetic.power, hn]
    exact if_pos (by exact_mod_cast of_decide_eq_true h)
  · cases h

theorem power_of_not_isExact {base exponent : Decimal} (hbase : base.isFinite)
    (h : ar.isExact base exponent = false) (scale : Int) :
    ar.power base exponent scale = ar.roundedPower base exponent scale := by
  match base, hbase with
  | .finite s c e, _ =>
    rw [Arithmetic.power]
    split
    · rfl
    · rename_i n hn
      refine if_neg fun hle ↦ ?_
      rw [(isExact_iff_of_integralValue hn s c e).2 hle] at h
      cases h

/-- **Powers that are computed in the same way agree.** -/
theorem power_agree (hzero : ar.elementary.IgnoresZeroSigns) {a a' b b' : Decimal}
    (ha : a.Equal a') (hb : b.Equal b') (hexact : ar.isExact a b = ar.isExact a' b') (scale : Int) :
    Agree (ar.power a b scale) (ar.power a' b' scale) := by
  cases h : ar.isExact a b with
  | false =>
    rw [power_of_not_isExact ha.left h, power_of_not_isExact ha.right (hexact ▸ h)]
    exact roundedPower_agree hzero ha hb scale
  | true =>
    obtain ⟨n, hn, hpower⟩ := power_of_isExact h scale
    obtain ⟨n', hn', hpower'⟩ := power_of_isExact (hexact ▸ h) scale
    rw [hb.integralValue_eq, hn'] at hn
    obtain rfl := Option.some.inj hn
    rw [hpower, hpower']
    exact wholePower_agree ha n' scale

/-! ## The other operators, and the functions -/

theorem divide_agree {a a' b b' : Decimal} (ha : a.Equal a') (hb : b.Equal b') (scale : Int) :
    Agree (a.divide b scale) (a'.divide b' scale) := by
  cases h : b.isZero with
  | true =>
    rw [divide_zero h, divide_zero (hb.isZero_eq ▸ h)]
    exact .error _
  | false =>
    have hne : b.toRat ≠ 0 := fun h0 ↦ by rw [(isZero_iff hb.left).2 h0] at h; cases h
    refine .of_spec (divide_spec ha.left hb.left hne scale) ?_
    rw [ha.toRat_eq, hb.toRat_eq] at *
    exact divide_spec ha.right hb.right hne scale

/-- **The operators give outcomes that agree on operands that denote the same numbers**, as far as
their powers do. -/
theorem Operator.apply_agree {op : Operator} {a a' b b' : Decimal} (ha : a.Equal a')
    (hb : b.Equal b') {scale : Int}
    (hpower : op = .power → Agree (ar.power a b scale) (ar.power a' b' scale)) :
    Agree (op.apply ar a b scale) (op.apply ar a' b' scale) := by
  cases op with
  | plus =>
    refine .of_spec (add_spec ha.left hb.left) ?_
    rw [ha.toRat_eq, hb.toRat_eq]
    exact add_spec ha.right hb.right
  | minus =>
    refine .of_spec (sub_spec ha.left hb.left) ?_
    rw [ha.toRat_eq, hb.toRat_eq]
    exact sub_spec ha.right hb.right
  | times =>
    refine .of_spec (mul_spec ha.left hb.left) ?_
    rw [ha.toRat_eq, hb.toRat_eq]
    exact mul_spec ha.right hb.right
  | divide => exact divide_agree ha hb scale
  | power => exact hpower rfl

theorem roundTo_agree {d d' : Decimal} (h : d.Equal d') (places : Int) :
    Agree (d.roundTo places) (d'.roundTo places) := by
  refine .of_spec (roundTo_spec h.left places) ?_
  rw [h.toRat_eq]
  exact roundTo_spec h.right places

theorem sine_agree (hzero : ar.elementary.IgnoresZeroSigns) {d d' : Decimal} (h : d.Equal d')
    (scale : Int) : Agree (ar.sine d scale) (ar.sine d' scale) := by
  have hx := Binary64.ofDecimal_alike h
  unfold Arithmetic.sine
  dsimp only
  rw [← hx.isInfinite_eq]
  split
  · exact .error _
  · refine ofBinary64_agree ?_ scale
    rcases hx with hx | ⟨hx, hx'⟩
    · rw [hx]
      exact .inl rfl
    · exact hzero.sin_zero _ _ hx hx'

end Formula
