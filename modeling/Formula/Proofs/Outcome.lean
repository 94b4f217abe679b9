import Formula.Proofs.Numeric.Evaluation

/-!
# What an evaluation ends with

An expression that calls no functions but the built-in ones ends with a finite number or with one of
a few failures (`Ends`), whatever its shape is and at whatever scale it is evaluated.  No operation
makes an infinity out of finite numbers, so this is an invariant of every step of an evaluation
(`Operator.apply_ends`, `sine_ends`), and `Ends.bind` carries it from one step to the next.

The sine is the one place where it breaks.  Decimals have any size and floating-point numbers have
not, so the angle can become an infinity, and the machine refuses to take its sine.  For a power the
same refusal is a failure of the calculator like any other; for the sine it is not.

* `Reaches ar p t e scale` — evaluating `e` at `scale` evaluates `p`, which occurs in it, at `t`.  A
  failure of what is reached is the failure of the whole (`Reaches.eval_error`).
* `TakesSine` — the numbers whose sines are taken, and `InRange`, that all of them are within the
  range of floating-point numbers.
* `Similar.eval_ends` — the main result: then the evaluation ends as described.
* `Similar.documented_iff` — and this is the exact condition for it.

`Similar ar e e'` is used here for what it says of `e` alone: the constants of `e` are finite, and
its functions are the built-in ones.
-/

set_option autoImplicit false

namespace Formula

open Decimal Formula.Expr

/-! ## The machine -/

/-- What is known of every machine: the sine of a finite number is finite, and the power of two
numbers one of which is infinite is never undefined.  (An undefined power of finite numbers is
outside the domain.) -/
structure Elementary.Definite (elementary : Elementary) : Prop where
  sin_finite : ∀ x : Binary64, x.isFinite → (elementary.sin x).isFinite
  pow_defined : ∀ x y : Binary64, x.isNaN = false → y.isNaN = false →
    (x.isFinite && y.isFinite) = false → (elementary.pow x y).isNaN = false

namespace Binary64

/-- A floating-point number is finite, infinite or not a number at all. -/
theorem isFinite_of_not {x : Binary64} (hnan : x.isNaN = false) (hinf : x.isInfinite = false) :
    x.isFinite := by
  simp only [isNaN, isInfinite, isFinite] at *
  grind

theorem pattern_ofPattern (s : Bool) {n : Nat} (h : n ≤ 0x7ff0000000000000) :
    (ofPattern s n).pattern = if s then 0x8000000000000000 + n else n := by
  rw [pattern, ofPattern, UInt64.toNat_ofNat']
  exact Nat.mod_eq_of_lt (by split <;> omega)

/-- The pattern of an infinity is the largest one that is a number. -/
theorem isNaN_ofPattern (s : Bool) {n : Nat} (h : n ≤ 0x7ff0000000000000) :
    (ofPattern s n).isNaN = false := by
  have hpattern := pattern_ofPattern s h
  rw [isNaN, exponentField, fractionField, hpattern, Bool.and_eq_false_iff]
  simp only [decide_eq_false_iff_not]
  split <;> omega

/-- What is nearest to a finite decimal is a number or an infinity. -/
theorem isNaN_ofDecimal {d : Decimal} (h : d.isFinite) : (ofDecimal d).isNaN = false := by
  match d, h with
  | .finite s c e, _ =>
    rw [ofDecimal]
    split
    · exact isNaN_ofPattern s (by decide)
    · split
      · exact isNaN_ofPattern s (by decide)
      · split
        · exact isNaN_ofPattern s (by decide)
        · exact isNaN_ofPattern s (Nat.min_le_right _ _)

end Binary64

/-! ## Failures -/

variable {ar : Arithmetic}

/-- The failures that operators and built-in functions have on finite numbers.  That a result of the
machine is not finite is left to say only if the machine is not definite. -/
inductive Arithmetic.Fails (ar : Arithmetic) : Failure → Prop
  | divisionByZero : Fails ar .divisionByZero
  | math {cause : MathFault} :
      (cause = .notFinite → ¬ ar.elementary.Definite) → Fails ar (.math cause)
  | precision : Fails ar .precision

/-- The outcome is a finite number or one of these failures. -/
inductive Ends (ar : Arithmetic) : Except Failure Decimal → Prop
  | ok {d : Decimal} : d.isFinite → Ends ar (.ok d)
  | error {f : Failure} : ar.Fails f → Ends ar (.error f)

theorem Ends.bind {x : Except Failure Decimal} {f : Decimal → Except Failure Decimal}
    (h : Ends ar x) (hf : ∀ d, x = .ok d → d.isFinite → Ends ar (f d)) : Ends ar (x.bind f) := by
  cases h with
  | ok hd => exact hf _ rfl hd
  | error hfails => exact .error hfails

/-- An outcome that is known to be a number. -/
theorem Ends.of_spec {x : Except Failure Decimal} {P : Decimal → Prop}
    (h : ∃ d, x = .ok d ∧ d.isFinite ∧ P d) : Ends ar x := by
  obtain ⟨d, rfl, hd, -⟩ := h
  exact .ok hd

/-! ## Operations on finite numbers -/

theorem divide_ends {a b : Decimal} (ha : a.isFinite) (hb : b.isFinite) (scale : Int) :
    Ends ar (a.divide b scale) := by
  cases h : b.isZero with
  | true =>
    rw [divide_zero h]
    exact .error .divisionByZero
  | false =>
    have hne : b.toRat ≠ 0 := fun h0 ↦ by rw [(isZero_iff hb).2 h0] at h; cases h
    exact .of_spec (divide_spec ha hb hne scale)

theorem wholePower_ends {a : Decimal} (ha : a.isFinite) (n scale : Int) :
    Ends ar (Arithmetic.wholePower a n scale) := by
  unfold Arithmetic.wholePower
  split
  · exact .ok (exactPower_spec ha _).1
  · split
    · exact .error .divisionByZero
    · exact divide_ends rfl (exactPower_spec ha _).1 scale

/-- A definite machine makes no powers that are not numbers without giving a reason. -/
theorem not_definite_of_roundedPower {a b : Decimal} (ha : a.isFinite) (hb : b.isFinite)
    {scale : Int} (h : ar.roundedPower a b scale = .error (.math .notFinite)) :
    ¬ ar.elementary.Definite := by
  intro hdefinite
  have hpow := hdefinite.pow_defined _ _ (Binary64.isNaN_ofDecimal ha) (Binary64.isNaN_ofDecimal hb)
  unfold Arithmetic.roundedPower Arithmetic.floatPower at h
  dsimp only at h
  generalize ar.elementary.pow (.ofDecimal a) (.ofDecimal b) = r at h hpow
  split at h
  · cases h
  · rename_i hdomain
    split at h
    · cases h
    · rename_i hrange
      have hinfinite : r.isInfinite = false := by simpa using hrange
      have hnan : r.isNaN = false := by
        cases hfinite : (Binary64.ofDecimal a).isFinite && (Binary64.ofDecimal b).isFinite with
        | false => exact hpow hfinite
        | true => simpa [hfinite, hinfinite] using hdomain
      obtain ⟨d, hd, -⟩ := ofBinary64_spec (Binary64.isFinite_of_not hnan hinfinite) scale
      cases hd.symm.trans h

theorem roundedPower_ends {a b : Decimal} (ha : a.isFinite) (hb : b.isFinite) (scale : Int) :
    Ends ar (ar.roundedPower a b scale) := by
  obtain ⟨d, hd, hfinite⟩ | ⟨cause, hcause⟩ := roundedPower_cases a b scale
  · rw [hd]
    exact .ok hfinite
  · rw [hcause]
    refine .error (.math ?_)
    rintro rfl
    exact not_definite_of_roundedPower ha hb hcause

theorem power_ends {a b : Decimal} (ha : a.isFinite) (hb : b.isFinite) (scale : Int) :
    Ends ar (ar.power a b scale) := by
  cases h : ar.isExact a b with
  | false =>
    rw [power_of_not_isExact ha h]
    exact roundedPower_ends ha hb scale
  | true =>
    obtain ⟨n, -, hpower⟩ := power_of_isExact h scale
    rw [hpower]
    exact wholePower_ends ha n scale

/-- **No operator makes anything but a number or one of the known failures out of numbers.** -/
theorem Operator.apply_ends (op : Operator) {a b : Decimal} (ha : a.isFinite) (hb : b.isFinite)
    (scale : Int) : Ends ar (op.apply ar a b scale) := by
  cases op with
  | plus => exact .of_spec (add_spec ha hb)
  | minus => exact .of_spec (sub_spec ha hb)
  | times => exact .of_spec (mul_spec ha hb)
  | divide => exact divide_ends ha hb scale
  | power => exact power_ends ha hb scale

/-- The sine of a number within the range of floating-point numbers. -/
theorem sine_ends {d : Decimal} (hd : d.isFinite)
    (hrange : (Binary64.ofDecimal d).isInfinite = false) (scale : Int) :
    Ends ar (ar.sine d scale) := by
  have hfinite := Binary64.isFinite_of_not (Binary64.isNaN_ofDecimal hd) hrange
  rw [Arithmetic.sine, if_neg (by simp [hrange])]
  cases hsine : (ar.elementary.sin (.ofDecimal d)).isFinite with
  | true =>
    obtain ⟨r, hr, hrfinite, -⟩ := ofBinary64_spec hsine scale
    rw [hr]
    exact .ok hrfinite
  | false =>
    rw [Arithmetic.ofBinary64, if_pos (by simp [hsine])]
    refine .error (.math fun _ hdefinite ↦ ?_)
    rw [hdefinite.sin_finite _ hfinite] at hsine
    cases hsine

/-! ## What an evaluation reaches -/

section

variable (ar)

/-- Evaluating an expression at a scale evaluates `p`, which occurs in it, at the scale `t`.  An
operand is evaluated if what stands before it has a value, and an argument of a built-in function if
the function looks at it. -/
inductive Reaches (p : Expr) (t : Int) : Expr → Int → Prop
  | self : Reaches p t p t
  | head {introduced : Bool} {head : Expr} {links : List Link} {scale : Int} :
      Reaches p t head scale → Reaches p t (.chain introduced head links) scale
  | operand {introduced : Bool} {head e : Expr} {before after : List Link} {op : Operator}
      {scale : Int} {a : Decimal} :
      eval ar (.chain introduced head before) scale = .ok a → Reaches p t e scale →
      Reaches p t (.chain introduced head (before ++ (op, e) :: after)) scale
  | angle {name : String} {x : Expr} {scale : Int} :
      Reaches p t x scale → Reaches p t (.call name (.sine ar) [x]) scale
  | condition {name : String} {c x y : Expr} {scale : Int} :
      Reaches p t c scale → Reaches p t (.call name .choose [c, x, y]) scale
  | whenNotZero {name : String} {c x y : Expr} {scale : Int} {d : Decimal} :
      eval ar c scale = .ok d → d.isZero = false → Reaches p t x scale →
      Reaches p t (.call name .choose [c, x, y]) scale
  | whenZero {name : String} {c x y : Expr} {scale : Int} {d : Decimal} :
      eval ar c scale = .ok d → d.isZero → Reaches p t y scale →
      Reaches p t (.call name .choose [c, x, y]) scale
  | rounded {name : String} {x n : Expr} {scale : Int} :
      Reaches p t x scale → Reaches p t (.call name (.round ar) [x, n]) scale
  | places {name : String} {x n : Expr} {scale : Int} {d : Decimal} :
      eval ar x scale = .ok d → Reaches p t n 0 →
      Reaches p t (.call name (.round ar) [x, n]) scale

/-- Evaluating the expression at a scale takes the sine of the number. -/
def TakesSine (e : Expr) (scale : Int) (d : Decimal) : Prop :=
  ∃ name x t, Reaches ar (.call name (.sine ar) [x]) t e scale ∧ eval ar x t = .ok d

/-- The sines that are taken are those of numbers within the range of floating-point numbers. -/
def InRange (e : Expr) (scale : Int) : Prop :=
  ∀ d, TakesSine ar e scale d → (Binary64.ofDecimal d).isInfinite = false

end

/-- **A failure of what is reached is the failure of the whole.** -/
theorem Reaches.eval_error {p e : Expr} {t scale : Int} (h : Reaches ar p t e scale) {f : Failure}
    (hp : eval ar p t = .error f) : eval ar e scale = .error f := by
  induction h with
  | self => exact hp
  | head _ ih => rw [eval_chain_eq_bind, ih]; rfl
  | @operand introduced head e before after op scale a ha _ ih =>
    rw [eval_chain_append, ha]
    show evalLinks ar a ((op, e) :: after) scale = _
    rw [evalLinks_cons, ih]
    rfl
  | angle _ ih => rw [eval_sine, ih]; rfl
  | condition _ ih => rw [eval_choose, ih]; rfl
  | whenNotZero hc hzero _ ih =>
    rw [eval_choose, hc]
    exact (if_neg (by simp [hzero])).trans ih
  | whenZero hc hzero _ ih =>
    rw [eval_choose, hc]
    exact (if_pos hzero).trans ih
  | rounded _ ih => rw [eval_round, ih]; rfl
  | places hx _ ih =>
    rw [eval_round, hx]
    show (eval ar _ 0).bind _ = _
    rw [ih]
    rfl

/-- A sine beyond the range is the end of the evaluation. -/
theorem TakesSine.eval_eq {e : Expr} {scale : Int} {d : Decimal} (h : TakesSine ar e scale d)
    (hd : (Binary64.ofDecimal d).isInfinite) : eval ar e scale = .error .sineOfInfinity := by
  obtain ⟨name, x, t, hreaches, hx⟩ := h
  refine hreaches.eval_error ?_
  rw [eval_sine, hx]
  exact if_pos hd

/-- What is in range stays so for everything that an evaluation reaches. -/
theorem InRange.of_reaches {e e' : Expr} {scale scale' : Int} (h : InRange ar e scale)
    (hreaches : ∀ p t, Reaches ar p t e' scale' → Reaches ar p t e scale) :
    InRange ar e' scale' := by
  rintro d ⟨name, x, t, hsine, hx⟩
  exact h d ⟨name, x, t, hreaches _ _ hsine, hx⟩

/-! ## The end of an evaluation -/

mutual

/-- **An expression with the built-in functions ends with a finite number or with one of the known
failures**, if its sines are in range. -/
theorem Similar.eval_ends : ∀ {e e' : Expr}, Similar ar e e' → ∀ scale, InRange ar e scale →
    Ends ar (eval ar e scale)
  | _, _, .const h, _, _ => .ok h.left
  | _, _, .chain hhead hlinks, scale, hrange => by
    rw [eval_chain_eq_bind]
    refine (hhead.eval_ends scale (hrange.of_reaches fun _ _ ↦ .head)).bind fun a ha hfinite ↦ ?_
    refine hlinks.evalLinks_ends hfinite scale fun before op e after b heq hb ↦ ?_
    subst heq
    refine hrange.of_reaches fun p t ↦ .operand (a := b) ?_
    rw [eval_chain_eq_bind, ha]
    exact hb
  | _, _, .sine hx, scale, hrange => by
    rw [eval_sine]
    refine (hx.eval_ends scale (hrange.of_reaches fun _ _ ↦ .angle)).bind fun d hd hfinite ↦ ?_
    exact sine_ends hfinite (hrange d ⟨_, _, scale, .self, hd⟩) scale
  | _, _, .choose hc hx hy, scale, hrange => by
    rw [eval_choose]
    refine (hc.eval_ends scale (hrange.of_reaches fun _ _ ↦ .condition)).bind fun d hd _ ↦ ?_
    split
    · rename_i hzero
      exact hy.eval_ends scale (hrange.of_reaches fun _ _ ↦ .whenZero hd hzero)
    · rename_i hzero
      exact hx.eval_ends scale (hrange.of_reaches fun _ _ ↦ .whenNotZero hd (by simpa using hzero))
  | _, _, .round hx hn, scale, hrange => by
    rw [eval_round]
    refine (hx.eval_ends scale (hrange.of_reaches fun _ _ ↦ .rounded)).bind fun d hd hfinite ↦ ?_
    refine (hn.eval_ends 0 (hrange.of_reaches fun _ _ ↦ .places hd)).bind fun places _ _ ↦ ?_
    split
    · exact .error .precision
    · exact .of_spec (roundTo_spec hfinite _)

/-- The same for the links of a chain whose operands so far have come to the number `a`. -/
theorem SimilarLinks.evalLinks_ends : ∀ {links links' : List Link}, SimilarLinks ar links links' →
    ∀ {a : Decimal}, a.isFinite → ∀ scale,
    (∀ before op e after b, links = before ++ (op, e) :: after →
      evalLinks ar a before scale = .ok b → InRange ar e scale) →
    Ends ar (evalLinks ar a links scale)
  | _, _, .nil, _, ha, _, _ => .ok ha
  | _, _, .cons op he hlinks, a, ha, scale, hrange => by
    rw [evalLinks_cons]
    refine (he.eval_ends scale (hrange [] op _ _ a rfl rfl)).bind fun b hb hbfinite ↦ ?_
    refine (op.apply_ends ha hbfinite scale).bind fun r hr hrfinite ↦ ?_
    refine hlinks.evalLinks_ends hrfinite scale fun before op' e' after c heq hc ↦ ?_
    refine hrange ((op, _) :: before) op' e' after c (by rw [heq]; rfl) ?_
    rw [evalLinks_cons, hb]
    show (op.apply ar a b scale).bind _ = _
    rw [hr]
    exact hc

end

/-! ## Documented outcomes -/

/-- The codes of the failures that an evaluation is documented to have. -/
def Failure.documentedCodes : List String := ["DIV0", "MATH_ERROR", "INVALID_PRECISION"]

/-- The outcome is a finite number, or a failure of the calculator with one of the documented
codes. -/
def Documented (x : Except Failure Decimal) : Prop :=
  (∃ d, x = .ok d ∧ d.isFinite) ∨
    ∃ f, x = .error f ∧ f.kind = .evaluation ∧ ∃ code ∈ Failure.documentedCodes, f.code? = some code

theorem Ends.documented {x : Except Failure Decimal} (h : Ends ar x) : Documented x := by
  cases h with
  | ok hd => exact .inl ⟨_, rfl, hd⟩
  | error hf =>
    refine .inr ⟨_, rfl, ?_⟩
    cases hf with
    | divisionByZero => exact ⟨rfl, "DIV0", by simp [Failure.documentedCodes], rfl⟩
    | math => exact ⟨rfl, "MATH_ERROR", by simp [Failure.documentedCodes], rfl⟩
    | precision => exact ⟨rfl, "INVALID_PRECISION", by simp [Failure.documentedCodes], rfl⟩

/-- The refusal to take a sine is a failure of the machine, and has no code. -/
theorem not_documented_sineOfInfinity : ¬ Documented (.error .sineOfInfinity) := by
  rintro (⟨d, hd, -⟩ | ⟨f, hf, hkind, -⟩)
  · cases hd
  · cases hf
    cases hkind

/-- An evaluation either has its sines in range, or ends at one that is not. -/
theorem Similar.eval_cases {e e' : Expr} (h : Similar ar e e') (scale : Int) :
    InRange ar e scale ∧ Ends ar (eval ar e scale) ∨
      ¬ InRange ar e scale ∧ eval ar e scale = .error .sineOfInfinity := by
  by_cases hrange : InRange ar e scale
  · exact .inl ⟨hrange, h.eval_ends scale hrange⟩
  · refine .inr ⟨hrange, ?_⟩
    simp only [InRange, not_forall, Bool.not_eq_false] at hrange
    obtain ⟨d, hsine, hd⟩ := hrange
    exact hsine.eval_eq hd

/-- **The outcome is documented exactly if the sines are in range**, and otherwise it is the refusal
of the machine. -/
theorem Similar.documented_iff {e e' : Expr} (h : Similar ar e e') (scale : Int) :
    (Documented (eval ar e scale) ↔ InRange ar e scale) ∧
      (¬ Documented (eval ar e scale) → eval ar e scale = .error .sineOfInfinity) := by
  obtain ⟨hrange, hends⟩ | ⟨hrange, heval⟩ := h.eval_cases scale
  · exact ⟨iff_of_true hends.documented hrange, fun hnot ↦ absurd hends.documented hnot⟩
  · refine ⟨iff_of_false ?_ hrange, fun _ ↦ heval⟩
    rw [heval]
    exact not_documented_sineOfInfinity

end Formula
