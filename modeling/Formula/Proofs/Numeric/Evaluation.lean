import Formula.Expr.Eval
import Formula.Expr.Group
import Formula.Function.Builtin
import Formula.Proofs.Numeric.Operators

/-!
# Expressions on equal numbers

Two expressions are similar if they differ in nothing but the way in which their constants are
written and in the marks on their chains (`Similar`).  Evaluating one of them follows the other step
by step, until a power is reached that only one of the two computes exactly.

* `Meets ar e e' scale p q` — evaluating `e` and `e'`, which are similar, reaches the powers `p` and
  `q` in the same place.  The rules are those of the evaluation: an operand is only reached if what
  stands before it has a value, and a branch if the condition selects it.
* `Steady ar e e' scale` — whatever powers are met, they are computed in the same way, or come to
  the same.
* `Similar.eval_agree` — the main result: then the outcomes agree.
* `Similar.group` — grouping by tiers keeps expressions similar.
-/

set_option autoImplicit false

namespace Formula

variable (ar : Arithmetic)

/-! ## Similar expressions -/

mutual

/-- The expressions differ in how their constants are written and in the marks on their chains, and
call no functions but the built-in ones. -/
inductive Similar : Expr → Expr → Prop
  | const {d d' : Decimal} : d.Equal d' → Similar (.const d) (.const d')
  | chain {introduced introduced' : Bool} {head head' : Expr} {links links' : List Link} :
      Similar head head' → SimilarLinks links links' →
      Similar (.chain introduced head links) (.chain introduced' head' links')
  | sine {name : String} {x x' : Expr} :
      Similar x x' → Similar (.call name (.sine ar) [x]) (.call name (.sine ar) [x'])
  | choose {name : String} {c c' x x' y y' : Expr} :
      Similar c c' → Similar x x' → Similar y y' →
      Similar (.call name .choose [c, x, y]) (.call name .choose [c', x', y'])
  | round {name : String} {x x' n n' : Expr} :
      Similar x x' → Similar n n' →
      Similar (.call name (.round ar) [x, n]) (.call name (.round ar) [x', n'])

/-- Links with the same operators and similar operands. -/
inductive SimilarLinks : List (Operator × Expr) → List (Operator × Expr) → Prop
  | nil : SimilarLinks [] []
  | cons {e e' : Expr} {links links' : List Link} (op : Operator) :
      Similar e e' → SimilarLinks links links' →
      SimilarLinks ((op, e) :: links) ((op, e') :: links')

end

/-! ## Powers that are met -/

/-- A power that an evaluation reaches. -/
structure PowerAt where
  base : Decimal
  exponent : Decimal
  scale : Int

/-- Is the power computed exactly? -/
def PowerAt.isExact (p : PowerAt) : Bool := ar.isExact p.base p.exponent

/-- The outcome of the power. -/
def PowerAt.outcome (p : PowerAt) : Except Failure Decimal := ar.power p.base p.exponent p.scale

open Formula.Expr

mutual

/-- Evaluating the two expressions reaches these powers in the same place. -/
inductive Meets : Expr → Expr → Int → PowerAt → PowerAt → Prop
  | head {i j : Bool} {head head' : Expr} {links links' : List Link} {scale : Int} {p q : PowerAt} :
      Meets head head' scale p q → Meets (.chain i head links) (.chain j head' links') scale p q
  | links {i j : Bool} {head head' : Expr} {links links' : List Link} {scale : Int} {p q : PowerAt}
      {a a' : Decimal} :
      eval ar head scale = .ok a → eval ar head' scale = .ok a' →
      MeetsInLinks a a' links links' scale p q →
      Meets (.chain i head links) (.chain j head' links') scale p q
  | sine {name : String} {x x' : Expr} {scale : Int} {p q : PowerAt} :
      Meets x x' scale p q →
      Meets (.call name (.sine ar) [x]) (.call name (.sine ar) [x']) scale p q
  | condition {name : String} {c c' x x' y y' : Expr} {scale : Int} {p q : PowerAt} :
      Meets c c' scale p q →
      Meets (.call name .choose [c, x, y]) (.call name .choose [c', x', y']) scale p q
  | whenNotZero {name : String} {c c' x x' y y' : Expr} {scale : Int} {p q : PowerAt}
      {d : Decimal} :
      eval ar c scale = .ok d → d.isZero = false → Meets x x' scale p q →
      Meets (.call name .choose [c, x, y]) (.call name .choose [c', x', y']) scale p q
  | whenZero {name : String} {c c' x x' y y' : Expr} {scale : Int} {p q : PowerAt} {d : Decimal} :
      eval ar c scale = .ok d → d.isZero → Meets y y' scale p q →
      Meets (.call name .choose [c, x, y]) (.call name .choose [c', x', y']) scale p q
  | rounded {name : String} {x x' n n' : Expr} {scale : Int} {p q : PowerAt} :
      Meets x x' scale p q →
      Meets (.call name (.round ar) [x, n]) (.call name (.round ar) [x', n']) scale p q
  | places {name : String} {x x' n n' : Expr} {scale : Int} {p q : PowerAt} {d : Decimal} :
      eval ar x scale = .ok d → Meets n n' 0 p q →
      Meets (.call name (.round ar) [x, n]) (.call name (.round ar) [x', n']) scale p q

/-- The same for links, after the operands so far have come to `a` and `a'`. -/
inductive MeetsInLinks : Decimal → Decimal → List (Operator × Expr) → List (Operator × Expr) →
    Int → PowerAt → PowerAt → Prop
  | operand {a a' : Decimal} {op : Operator} {e e' : Expr} {links links' : List Link} {scale : Int}
      {p q : PowerAt} :
      Meets e e' scale p q → MeetsInLinks a a' ((op, e) :: links) ((op, e') :: links') scale p q
  | power {a a' b b' : Decimal} {e e' : Expr} {links links' : List Link} {scale : Int} :
      eval ar e scale = .ok b → eval ar e' scale = .ok b' →
      MeetsInLinks a a' ((.power, e) :: links) ((.power, e') :: links') scale ⟨a, b, scale⟩
        ⟨a', b', scale⟩
  | rest {a a' b b' r r' : Decimal} {op : Operator} {e e' : Expr} {links links' : List Link}
      {scale : Int} {p q : PowerAt} :
      eval ar e scale = .ok b → eval ar e' scale = .ok b' →
      op.apply ar a b scale = .ok r → op.apply ar a' b' scale = .ok r' →
      MeetsInLinks r r' links links' scale p q →
      MeetsInLinks a a' ((op, e) :: links) ((op, e') :: links') scale p q

end

/-- The powers are computed in the same way, or come to the same. -/
def PowerAt.Settles (p q : PowerAt) : Prop :=
  p.isExact ar = q.isExact ar ∨ Agree (p.outcome ar) (q.outcome ar)

/-- Whatever powers the two evaluations meet, they settle. -/
def Steady (e e' : Expr) (scale : Int) : Prop := ∀ p q, Meets ar e e' scale p q → p.Settles ar q

variable {ar}

/-! ## Evaluation -/

theorem PowerAt.Settles.agree (hzero : ar.elementary.IgnoresZeroSigns) {a a' b b' : Decimal}
    {scale : Int} (h : PowerAt.Settles ar ⟨a, b, scale⟩ ⟨a', b', scale⟩) (ha : a.Equal a')
    (hb : b.Equal b') : Agree (ar.power a b scale) (ar.power a' b' scale) := by
  rcases h with h | h
  · exact power_agree hzero ha hb h scale
  · exact h

theorem eval_chain_eq_bind (introduced : Bool) (head : Expr) (links : List Link) (scale : Int) :
    eval ar (.chain introduced head links) scale =
      (eval ar head scale).bind fun a ↦ evalLinks ar a links scale := rfl

/-- A chain can be evaluated up to one of its operands, and then on from there. -/
theorem eval_chain_append (introduced : Bool) (head : Expr) (before after : List Link)
    (scale : Int) :
    eval ar (.chain introduced head (before ++ after)) scale =
      (eval ar (.chain introduced head before) scale).bind fun a ↦ evalLinks ar a after scale := by
  rw [eval_chain_eq_bind, eval_chain_eq_bind]
  cases eval ar head scale with
  | error f => rfl
  | ok d => exact evalLinks_append ..

theorem evalLinks_cons (a : Decimal) (op : Operator) (e : Expr) (links : List Link) (scale : Int) :
    evalLinks ar a ((op, e) :: links) scale =
      (eval ar e scale).bind fun b ↦ (op.apply ar a b scale).bind fun r ↦
        evalLinks ar r links scale := rfl

theorem eval_sine (name : String) (x : Expr) (scale : Int) :
    eval ar (.call name (.sine ar) [x]) scale =
      (eval ar x scale).bind fun d ↦ ar.sine d scale := by
  rw [eval]
  cases h : eval ar x scale with
  | error f => simp [argumentsOf, Procedure.sine, Procedure.unary, h, bind, Except.bind]
  | ok d =>
    simp only [argumentsOf, Procedure.sine, Procedure.unary, h, bind, Except.bind]
    cases ar.sine d scale <;> rfl

theorem eval_choose (name : String) (c x y : Expr) (scale : Int) :
    eval ar (.call name .choose [c, x, y]) scale =
      (eval ar c scale).bind fun d ↦ if d.isZero then eval ar y scale else eval ar x scale := by
  rw [eval]
  cases h : eval ar c scale with
  | error f => simp [argumentsOf, Procedure.choose, Procedure.ternary, h, bind, Except.bind]
  | ok d =>
    simp only [argumentsOf, Procedure.choose, Procedure.ternary, h, bind, Except.bind]
    cases d.isZero with
    | true => cases eval ar y scale <;> rfl
    | false => cases eval ar x scale <;> rfl

theorem eval_round (name : String) (x n : Expr) (scale : Int) :
    eval ar (.call name (.round ar) [x, n]) scale =
      (eval ar x scale).bind fun d ↦ (eval ar n 0).bind fun places ↦
        match places.integralValue ar.maxRoundingDigits with
        | none => .error .precision
        | some k => d.roundTo k := by
  rw [eval]
  cases h : eval ar x scale with
  | error f => simp [argumentsOf, Procedure.round, Procedure.binary, h, bind, Except.bind]
  | ok d =>
    cases h' : eval ar n 0 with
    | error f => simp [argumentsOf, Procedure.round, Procedure.binary, h, h', bind, Except.bind]
    | ok places =>
      simp only [argumentsOf, Procedure.round, Procedure.binary, h, h', bind, Except.bind]
      cases places.integralValue ar.maxRoundingDigits with
      | none => rfl
      | some k =>
        dsimp only
        cases d.roundTo k <;> rfl

mutual

/-- **Similar expressions have outcomes that agree**, if the powers that they meet settle. -/
theorem Similar.eval_agree (hzero : ar.elementary.IgnoresZeroSigns) : ∀ {e e' : Expr},
    Similar ar e e' → ∀ scale, Steady ar e e' scale → Agree (eval ar e scale) (eval ar e' scale)
  | _, _, .const h, scale, _ => .ok h
  | _, _, .chain hhead hlinks, scale, hsteady => by
    rw [eval_chain_eq_bind, eval_chain_eq_bind]
    refine (hhead.eval_agree hzero scale fun p q h ↦ hsteady p q (.head h)).bind ?_
    intro a a' ha ha' hequal
    exact hlinks.evalLinks_agree hzero hequal scale fun p q h ↦ hsteady p q (.links ha ha' h)
  | _, _, .sine hx, scale, hsteady => by
    rw [eval_sine, eval_sine]
    exact (hx.eval_agree hzero scale fun p q h ↦ hsteady p q (.sine h)).bind
      fun d d' _ _ h ↦ sine_agree hzero h scale
  | _, _, .choose hc hx hy, scale, hsteady => by
    rw [eval_choose, eval_choose]
    refine (hc.eval_agree hzero scale fun p q h ↦ hsteady p q (.condition h)).bind ?_
    intro d d' hd _ hequal
    rw [← hequal.isZero_eq]
    cases hz : d.isZero with
    | true => exact hy.eval_agree hzero scale fun p q h ↦ hsteady p q (.whenZero hd hz h)
    | false => exact hx.eval_agree hzero scale fun p q h ↦ hsteady p q (.whenNotZero hd hz h)
  | _, _, .round hx hn, scale, hsteady => by
    rw [eval_round, eval_round]
    refine (hx.eval_agree hzero scale fun p q h ↦ hsteady p q (.rounded h)).bind ?_
    intro d d' hd _ hequal
    refine (hn.eval_agree hzero 0 fun p q h ↦ hsteady p q (.places hd h)).bind ?_
    intro n n' _ _ hplaces
    rw [← hplaces.integralValue_eq]
    split
    · exact .error _
    · exact roundTo_agree hequal _

theorem SimilarLinks.evalLinks_agree (hzero : ar.elementary.IgnoresZeroSigns) :
    ∀ {links links' : List Link}, SimilarLinks ar links links' → ∀ {a a' : Decimal}, a.Equal a' →
      ∀ scale, (∀ p q, MeetsInLinks ar a a' links links' scale p q → p.Settles ar q) →
        Agree (evalLinks ar a links scale) (evalLinks ar a' links' scale)
  | _, _, .nil, _, _, ha, scale, _ => .ok ha
  | _, _, .cons op he hlinks, a, a', ha, scale, hsteady => by
    rw [evalLinks_cons, evalLinks_cons]
    refine (he.eval_agree hzero scale fun p q h ↦ hsteady p q (.operand h)).bind ?_
    intro b b' hb hb' hequal
    have happly : Agree (op.apply ar a b scale) (op.apply ar a' b' scale) := by
      refine Operator.apply_agree ha hequal ?_
      rintro rfl
      exact (hsteady _ _ (.power hb hb')).agree hzero ha hequal
    refine happly.bind ?_
    intro r r' hr hr' hequal'
    exact hlinks.evalLinks_agree hzero hequal' scale
      fun p q h ↦ hsteady p q (.rest hb hb' hr hr' h)

end

/-! ## Grouping -/

/-- Runs with the same operators and similar operands. -/
def SimilarRun (ar : Arithmetic) (r r' : Run) : Prop :=
  r.op = r'.op ∧ Similar ar r.operand r'.operand ∧ SimilarLinks ar r.rest r'.rest

theorem SimilarLinks.runs (tier : Nat) {links links' : List Link}
    (h : SimilarLinks ar links links') :
    SimilarLinks ar (runs tier links).1 (runs tier links').1 ∧
      List.Forall₂ (SimilarRun ar) (runs tier links).2 (runs tier links').2 := by
  cases h with
  | nil => exact ⟨.nil, .nil⟩
  | cons op he hlinks =>
    obtain ⟨hfirst, hothers⟩ := hlinks.runs tier
    simp only [Expr.runs]
    split
    · exact ⟨.nil, .cons ⟨rfl, he, hfirst⟩ hothers⟩
    · exact ⟨.cons op he hfirst, hothers⟩

theorem SimilarLinks.any_eq {links links' : List Link} (h : SimilarLinks ar links links')
    (f : Operator → Bool) : (links.any fun l ↦ f l.1) = links'.any fun l ↦ f l.1 := by
  cases h with
  | nil => rfl
  | cons op he hlinks => rw [List.any_cons, List.any_cons, hlinks.any_eq f]

theorem SimilarLinks.isEmpty_eq {links links' : List Link} (h : SimilarLinks ar links links') :
    links.isEmpty = links'.isEmpty := by
  cases h <;> rfl

theorem Similar.bundle (n : Nat) {introduced introduced' : Bool} {head head' : Expr}
    {links links' : List Link} (hhead : Similar ar head head')
    (hlinks : SimilarLinks ar links links') :
    Similar ar (bundle n introduced head links) (bundle n introduced' head' links') := by
  induction n generalizing introduced introduced' head head' links links' with
  | zero => exact .chain hhead hlinks
  | succ n ih =>
    obtain ⟨hfirst, hothers⟩ := hlinks.runs (2 - n)
    rw [Expr.bundle, Expr.bundle, ← hlinks.any_eq fun op ↦ op.tier = 2 - n]
    split
    · have hrest : ∀ {e e' : Expr} {ls ls' : List Link}, Similar ar e e' → SimilarLinks ar ls ls' →
          Similar ar (if ls.isEmpty then e else Expr.bundle n true e ls)
            (if ls'.isEmpty then e' else Expr.bundle n true e' ls') := by
        intro e e' ls ls' he hls
        rw [← hls.isEmpty_eq]
        split
        · exact he
        · exact ih he hls
      refine .chain (hrest hhead hfirst) ?_
      generalize (Expr.runs (2 - n) links).2 = rs at hothers
      generalize (Expr.runs (2 - n) links').2 = rs' at hothers
      induction hothers with
      | nil => exact .nil
      | @cons r r' rs rs' hr _ ihrs =>
        obtain ⟨hop, hoperand, htail⟩ := hr
        rw [List.map_cons, List.map_cons, hop]
        exact .cons r'.op (hrest hoperand htail) ihrs
    · exact ih hhead hlinks

mutual

/-- **Grouping by tiers keeps expressions similar.** -/
theorem Similar.group : ∀ {e e' : Expr}, Similar ar e e' → Similar ar e.group e'.group
  | _, _, .const h => .const h
  | _, _, .chain hhead hlinks => .bundle 3 hhead.group hlinks.groupLinks
  | _, _, .sine hx => .sine hx.group
  | _, _, .choose hc hx hy => .choose hc.group hx.group hy.group
  | _, _, .round hx hn => .round hx.group hn.group

theorem SimilarLinks.groupLinks : ∀ {links links' : List Link}, SimilarLinks ar links links' →
    SimilarLinks ar (groupLinks links) (groupLinks links')
  | _, _, .nil => .nil
  | _, _, .cons op he hlinks => .cons op he.group hlinks.groupLinks

end

end Formula
