import Formula.Proofs.Position

/-!
# Where the scale matters

Sums, differences and products are exact, and so is a power with a small whole exponent that is not
negative.  The scale is handed to all operators in the same way, but only quotients, reciprocals and
what comes from the machine are rounded to it.  So an evaluation that comes to none of these has the
same outcome at every scale.

Two things make this more than a property of the operators.  Which operations an evaluation comes to
depends on values, by way of the branch that a choice selects and of an operand that fails.  And the
number of places of a rounding is evaluated at the scale zero, whatever the scale around it is, so
what stands there can be as inexact as it likes.

* `Performs ar scale e o` — the evaluation of `e` at the scale comes to the operation `o`, outside
  of the number of places of a rounding.
* `Operation.IsExact` — the operations that are not rounded.
* `eval_eq_of_isExact` — the main result.
-/

set_option autoImplicit false

namespace Formula

/-! ## Operations -/

/-- A step of an evaluation that computes something from values. -/
inductive Operation
  | apply (op : Operator) (a b : Decimal)
  | sine (angle : Decimal)

/-- The operation is not rounded to the scale: it is neither a quotient nor a sine, and if it is a
power, then the exponent denotes a whole number that is not negative, and the size of the result
does not keep the power from being exact. -/
def Operation.IsExact (ar : Arithmetic) : Operation → Prop
  | apply .divide _ _ => False
  | apply .power a b =>
    ∃ n : Nat, b.integralValue ar.maxExactExponent = some (n : Int) ∧
      ∀ k, Arithmetic.powerDigits a n = .ok k → (k : Int) ≤ ar.maxResultDigits
  | apply _ _ _ => True
  | sine _ => False

/-- An exact operation does not see the scale. -/
theorem Operation.IsExact.apply_eq {ar : Arithmetic} {op : Operator} {a b : Decimal}
    (h : (Operation.apply op a b).IsExact ar) (scale scale' : Int) :
    op.apply ar a b scale' = op.apply ar a b scale := by
  cases op with
  | plus | minus | times => rfl
  | divide => exact h.elim
  | power =>
    obtain ⟨n, hn, hsize⟩ := h
    simp only [Operator.apply, Arithmetic.power, hn]
    cases hk : Arithmetic.powerDigits a n with
    | error f => rfl
    | ok k =>
      have hle := hsize k hk
      simp only [bind, Except.bind, if_pos hle, Arithmetic.wholePower, Int.natCast_nonneg, if_true]

namespace Expr

variable (ar : Arithmetic) (scale : Int)

mutual

/-- The evaluation of an expression with built-in functions comes to this operation, outside of the
number of places of a rounding. -/
inductive Performs : Expr → Operation → Prop
  | head {introduced : Bool} {head : Expr} {links : List Link} {o : Operation} :
      Performs head o → Performs (chain introduced head links) o
  | links {introduced : Bool} {head : Expr} {links : List Link} {a : Decimal} {o : Operation} :
      eval ar head scale = .ok a → PerformsInLinks a links o →
      Performs (chain introduced head links) o
  | angle {name : String} {x : Expr} {o : Operation} :
      Performs x o → Performs (call name (.sine ar) [x]) o
  | sine {name : String} {x : Expr} {d : Decimal} :
      eval ar x scale = .ok d → Performs (call name (.sine ar) [x]) (.sine d)
  | condition {name : String} {c x y : Expr} {o : Operation} :
      Performs c o → Performs (call name .choose [c, x, y]) o
  | whenNotZero {name : String} {c x y : Expr} {d : Decimal} {o : Operation} :
      eval ar c scale = .ok d → d.isZero = false → Performs x o →
      Performs (call name .choose [c, x, y]) o
  | whenZero {name : String} {c x y : Expr} {d : Decimal} {o : Operation} :
      eval ar c scale = .ok d → d.isZero → Performs y o →
      Performs (call name .choose [c, x, y]) o
  | rounded {name : String} {x n : Expr} {o : Operation} :
      Performs x o → Performs (call name (.round ar) [x, n]) o

/-- The same for links, after the operands so far have come to `a`. -/
inductive PerformsInLinks : Decimal → List (Operator × Expr) → Operation → Prop
  | operand {a : Decimal} {op : Operator} {e : Expr} {links : List Link} {o : Operation} :
      Performs e o → PerformsInLinks a ((op, e) :: links) o
  | apply {a b : Decimal} {op : Operator} {e : Expr} {links : List Link} :
      eval ar e scale = .ok b → PerformsInLinks a ((op, e) :: links) (.apply op a b)
  | rest {a b r : Decimal} {op : Operator} {e : Expr} {links : List Link} {o : Operation} :
      eval ar e scale = .ok b → op.apply ar a b scale = .ok r → PerformsInLinks r links o →
      PerformsInLinks a ((op, e) :: links) o

end

variable {ar scale}

/-! What is performed, one level down. -/

variable {o : Operation}

theorem not_performs_const {d : Decimal} : ¬ Performs ar scale (const d) o :=
  fun h ↦ by cases h

theorem performs_chain {introduced : Bool} {head : Expr} {links : List Link} :
    Performs ar scale (chain introduced head links) o ↔
      Performs ar scale head o ∨
        ∃ a, eval ar head scale = .ok a ∧ PerformsInLinks ar scale a links o := by
  constructor
  · intro h
    cases h with
    | head h => exact .inl h
    | links ha h => exact .inr ⟨_, ha, h⟩
  · rintro (h | ⟨a, ha, h⟩)
    · exact .head h
    · exact .links ha h

theorem not_performsInLinks_nil {a : Decimal} : ¬ PerformsInLinks ar scale a [] o :=
  fun h ↦ by cases h

theorem performsInLinks_cons {a : Decimal} {op : Operator} {e : Expr} {links : List Link} :
    PerformsInLinks ar scale a ((op, e) :: links) o ↔
      Performs ar scale e o ∨ ∃ b, eval ar e scale = .ok b ∧
        (o = .apply op a b ∨
          ∃ r, op.apply ar a b scale = .ok r ∧ PerformsInLinks ar scale r links o) := by
  constructor
  · intro h
    cases h with
    | operand h => exact .inl h
    | apply hb => exact .inr ⟨_, hb, .inl rfl⟩
    | rest hb hr h => exact .inr ⟨_, hb, .inr ⟨_, hr, h⟩⟩
  · rintro (h | ⟨b, hb, rfl | ⟨r, hr, h⟩⟩)
    · exact .operand h
    · exact .apply hb
    · exact .rest hb hr h

theorem performs_choose {name : String} {c x y : Expr} :
    Performs ar scale (call name .choose [c, x, y]) o ↔
      Performs ar scale c o ∨ ∃ d, eval ar c scale = .ok d ∧
        (d.isZero = false ∧ Performs ar scale x o ∨ d.isZero ∧ Performs ar scale y o) := by
  constructor
  · generalize he : call name .choose [c, x, y] = e
    intro h
    cases h with
    | condition h =>
      cases he
      exact .inl h
    | whenNotZero hd hz h =>
      cases he
      exact .inr ⟨_, hd, .inl ⟨hz, h⟩⟩
    | whenZero hd hz h =>
      cases he
      exact .inr ⟨_, hd, .inr ⟨hz, h⟩⟩
    | _ => simp at he
  · rintro (h | ⟨d, hd, ⟨hz, h⟩ | ⟨hz, h⟩⟩)
    · exact .condition h
    · exact .whenNotZero hd hz h
    · exact .whenZero hd hz h

theorem performs_round {name : String} {x n : Expr} :
    Performs ar scale (call name (.round ar) [x, n]) o ↔ Performs ar scale x o := by
  constructor
  · generalize he : call name (.round ar) [x, n] = e
    intro h
    cases h with
    | rounded h =>
      cases he
      exact h
    | _ => simp at he
  · exact .rounded

/-! ## Evaluations in step -/

/-- If the evaluation of the expression performs none but exact operations, then it has the same
outcome at the other scale. -/
def InStep (ar : Arithmetic) (scale scale' : Int) (e : Expr) : Prop :=
  (∀ o, Performs ar scale e o → o.IsExact ar) → eval ar e scale' = eval ar e scale

/-- Equal values can be handed on in the same way. -/
theorem bind_eq_bind {α : Type} {x y : Except Failure Decimal} {f g : Decimal → Except Failure α}
    (hxy : x = y) (hfg : ∀ d, y = .ok d → f d = g d) : x.bind f = y.bind g := by
  subst hxy
  cases x with
  | error e => rfl
  | ok d => exact hfg d rfl

variable {scale' : Int}

theorem evalLinks_eq_of_inStep {links : List Link}
    (h : ∀ l ∈ links, InStep ar scale scale' l.2) {a : Decimal}
    (hexact : ∀ o, PerformsInLinks ar scale a links o → o.IsExact ar) :
    evalLinks ar a links scale' = evalLinks ar a links scale := by
  induction links generalizing a with
  | nil => rfl
  | cons l links ih =>
    obtain ⟨op, e⟩ := l
    rw [evalLinks_cons, evalLinks_cons]
    refine bind_eq_bind (h _ List.mem_cons_self fun o ho ↦ hexact o (.operand ho)) fun b hb ↦ ?_
    refine bind_eq_bind ((hexact _ (.apply hb)).apply_eq scale scale') fun r hr ↦ ?_
    exact ih (fun l hl ↦ h l (List.mem_cons_of_mem _ hl)) fun o ho ↦ hexact o (.rest hb hr ho)

/-- **The evaluations of an expression with the built-in functions stay in step.** -/
theorem inStep (e : Expr) (he : Everywhere (CallsBuiltin ar) e) : InStep ar scale scale' e := by
  induction e using parts_induction with
  | step e ih =>
    intro hexact
    have hpart : ∀ p ∈ e.parts, InStep ar scale scale' p := fun p hp ↦ ih p hp (he.part p hp)
    cases e with
    | const d => rfl
    | chain introduced head links =>
      rw [eval_chain_eq_bind, eval_chain_eq_bind]
      refine bind_eq_bind (hpart head List.mem_cons_self fun o ho ↦ hexact o (.head ho))
        fun a ha ↦ ?_
      exact evalLinks_eq_of_inStep
        (fun l hl ↦ hpart l.2 (List.mem_cons_of_mem _ (List.mem_map_of_mem hl)))
        fun o ho ↦ hexact o (.links ha ho)
    | call name procedure arguments =>
      obtain ⟨x, rfl, rfl⟩ | ⟨c, x, y, rfl, rfl⟩ | ⟨x, n, rfl, rfl⟩ := he.self.cases
      · rw [eval_sine, eval_sine]
        refine bind_eq_bind (hpart x (by simp [parts]) fun o ho ↦ hexact o (.angle ho))
          fun d hd ↦ ?_
        exact (hexact _ (.sine hd)).elim
      · rw [eval_choose, eval_choose]
        refine bind_eq_bind (hpart c (by simp [parts]) fun o ho ↦ hexact o (.condition ho))
          fun d hd ↦ ?_
        cases hz : d.isZero with
        | true => exact hpart y (by simp [parts]) fun o ho ↦ hexact o (.whenZero hd hz ho)
        | false => exact hpart x (by simp [parts]) fun o ho ↦ hexact o (.whenNotZero hd hz ho)
      · rw [eval_round, eval_round]
        -- the number of places is evaluated at the scale zero in both runs
        exact bind_eq_bind (hpart x (by simp [parts]) fun o ho ↦ hexact o (.rounded ho))
          fun _ _ ↦ rfl

/-! ## Grouping -/

/-- Grouping by tiers leaves the calls of an expression calls of built-in functions. -/
theorem everywhere_callsBuiltin_group (e : Expr) (he : Everywhere (CallsBuiltin ar) e) :
    Everywhere (CallsBuiltin ar) e.group := by
  induction e using parts_induction with
  | step e ih =>
    have hpart : ∀ p ∈ e.parts, Everywhere (CallsBuiltin ar) p.group :=
      fun p hp ↦ ih p hp (he.part p hp)
    cases e with
    | const d => exact he
    | chain introduced head links =>
      have hchain : ∀ (i : Bool) (head : Expr) (links : List Link),
          Everywhere (CallsBuiltin ar) head → (∀ l ∈ links, Everywhere (CallsBuiltin ar) l.2) →
            Everywhere (CallsBuiltin ar) (chain i head links) :=
        fun _ _ _ hhead hlinks ↦ everywhere_chain.2 ⟨trivial, hhead, hlinks⟩
      refine bundle_of_chain hchain (hpart head List.mem_cons_self) fun l hl ↦ ?_
      rw [groupLinks_eq_map] at hl
      obtain ⟨l', hl', rfl⟩ := List.mem_map.1 hl
      exact hpart l'.2 (List.mem_cons_of_mem _ (List.mem_map_of_mem hl'))
    | call name procedure arguments =>
      rw [group, groupArguments_eq_map]
      refine everywhere_call.2 ⟨?_, fun e hmem ↦ ?_⟩
      · obtain ⟨d, hd, hprocedure, hlength⟩ := he.self
        exact ⟨d, hd, hprocedure, by rwa [List.length_map]⟩
      · obtain ⟨e', he', rfl⟩ := List.mem_map.1 hmem
        exact hpart e' he'

/-- **The scale has no part in exact results.**  If the evaluation of an expression with the
built-in functions at one scale comes to no quotient, to no sine, and to no power but exact ones
with exponents that are not negative, then it has the same outcome at every other scale: the same
decimal, digit for digit, or the same failure.  This does not count what is performed in the number
of places of a rounding.  It holds of the expression as it is written, and of the expression grouped
by tiers. -/
theorem eval_eq_of_isExact {e : Expr} (he : Everywhere (CallsBuiltin ar) e) (s₁ s₂ : Int) :
    ((∀ o, Performs ar s₁ e o → o.IsExact ar) → eval ar e s₂ = eval ar e s₁) ∧
      ((∀ o, Performs ar s₁ e.group o → o.IsExact ar) →
        eval ar e.group s₂ = eval ar e.group s₁) :=
  ⟨inStep e he, inStep e.group (everywhere_callsBuiltin_group e he)⟩

/-- `ROUND(2 ^ 3, 5 / 3) - IF(0, 1 / 3, 4) + 1.25` -/
def roundedPower : Expr :=
  chain false
    (call "round" (.round (Settings.standard.arithmetic .native))
      [chain false (const (.ofInt 2)) [(.power, const (.ofInt 3))],
        chain false (const (.ofInt 5)) [(.divide, const (.ofInt 3))]])
    [(.minus, call "if" .choose [const (.ofInt 0),
      chain false (const (.ofInt 1)) [(.divide, const (.ofInt 3))], const (.ofInt 4)]),
      (.plus, const (.finite false 125 (-2)))]

theorem isExact_of_performs_roundedPower (o : Operation)
    (ho : Performs (Settings.standard.arithmetic .native) 1 roundedPower o) :
    o.IsExact (Settings.standard.arithmetic .native) := by
  have hcube : (Operation.apply .power (.ofInt 2) (.ofInt 3)).IsExact
      (Settings.standard.arithmetic .native) := by
    refine ⟨3, by decide +kernel, fun k hk ↦ ?_⟩
    obtain rfl := Except.ok.inj hk
    decide +kernel
  have hconst (d : Decimal) :
      eval (Settings.standard.arithmetic .native) (const d) 1 = .ok d := rfl
  simp only [roundedPower, performs_chain, performsInLinks_cons, performs_round, performs_choose,
    not_performs_const, not_performsInLinks_nil, hconst, Except.ok.injEq, exists_eq_left',
    false_or, and_false, exists_false, or_false] at ho
  obtain rfl | ⟨a, -, ⟨hzero, -⟩ | ⟨b, -, rfl | ⟨r, -, rfl⟩⟩⟩ := ho
  · exact hcube
  · cases hzero
  · trivial
  · trivial

/-- A third of five is rounded in the number of places, and a third of one in a branch that is not
selected; nothing else is. -/
theorem eval_eq_of_isExact_roundedPower :
    Everywhere (CallsBuiltin (Settings.standard.arithmetic .native)) roundedPower ∧
      (∀ o, Performs (Settings.standard.arithmetic .native) 1 roundedPower o →
        o.IsExact (Settings.standard.arithmetic .native)) ∧
      (∀ o, Performs (Settings.standard.arithmetic .native) 1 roundedPower.group o →
        o.IsExact (Settings.standard.arithmetic .native)) ∧
      eval (Settings.standard.arithmetic .native) roundedPower 7 =
        eval (Settings.standard.arithmetic .native) roundedPower 1 ∧
      eval (Settings.standard.arithmetic .native) roundedPower.group 7 =
        eval (Settings.standard.arithmetic .native) roundedPower.group 1 := by
  have hbuiltin :
      Everywhere (CallsBuiltin (Settings.standard.arithmetic .native)) roundedPower := by
    simp [roundedPower, CallsBuiltin, Registry.builtins]
  have hgroup : roundedPower.group = roundedPower := rfl
  have hexact : ∀ o, Performs (Settings.standard.arithmetic .native) 1 roundedPower.group o →
      o.IsExact (Settings.standard.arithmetic .native) := by
    rw [hgroup]
    exact isExact_of_performs_roundedPower
  obtain ⟨hwritten, hgrouped⟩ := eval_eq_of_isExact hbuiltin 1 7
  exact ⟨hbuiltin, isExact_of_performs_roundedPower, hexact,
    hwritten isExact_of_performs_roundedPower, hgrouped hexact⟩

end Expr

end Formula
