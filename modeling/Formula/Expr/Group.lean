import Formula.Expr.Basic

/-!
# Grouping by tiers

The value of a chain is a fold from left to right, which is right only if all of its operators
belong to one tier.  `group` changes an expression so that this holds of every chain: the operators
of the lowest tier stay, and each run of tighter operators becomes a chain of its own, which is
grouped in the same way.  These chains are marked as introduced.

`1 + 2 * 3 ^ 2 - 4` becomes `1 + {2 * {3 ^ 2}} - 4`.

There are three tiers, so `bundle` goes through them from the lowest to the highest and needs no
other bound.

* `runs tier links` — cuts the links of a chain before every operator of the given tier.
* `bundle n` — groups a chain whose operators all belong to the `n` highest tiers.
* `runs_join` — cutting loses nothing: the runs put together again are the links.
* `runs_spec`, `tier_lt_of_mem_runs` — a run begins with an operator of the given tier and has no
  other one; at the lowest tier, all others bind tighter.
-/

set_option autoImplicit false

namespace Formula.Expr

/-- A link together with the tighter links that follow it. -/
structure Run where
  op : Operator
  operand : Expr
  rest : List (Operator × Expr)

/-- The links of a run, in order. -/
def Run.links (r : Run) : List Link := (r.op, r.operand) :: r.rest

/-- The links before the first operator of a tier, and a run for each operator of that tier. -/
def runs (tier : Nat) : List (Operator × Expr) → List (Operator × Expr) × List Run
  | [] => ([], [])
  | (op, e) :: rest =>
    let (first, others) := runs tier rest
    if op.tier = tier then ([], ⟨op, e, first⟩ :: others) else ((op, e) :: first, others)

/-- Cutting loses nothing. -/
theorem runs_join (tier : Nat) (links : List Link) :
    (runs tier links).1 ++ (runs tier links).2.flatMap Run.links = links := by
  induction links with
  | nil => rfl
  | cons l links ih =>
    obtain ⟨op, e⟩ := l
    simp only [runs]
    split
    · simp [Run.links, ih]
    · simp [ih]

/-- A cut leaves operators of its tier only at the beginning of the runs. -/
theorem runs_spec (tier : Nat) (links : List Link) :
    (∀ l ∈ (runs tier links).1, l.1.tier ≠ tier) ∧
      ∀ r ∈ (runs tier links).2, r.op.tier = tier ∧ ∀ l ∈ r.rest, l.1.tier ≠ tier := by
  induction links with
  | nil => simp [runs]
  | cons l links ih =>
    obtain ⟨op, e⟩ := l
    obtain ⟨hfirst, hothers⟩ := ih
    simp only [runs]
    split
    · rename_i hop
      refine ⟨by simp, fun r hr ↦ ?_⟩
      rcases List.mem_cons.1 hr with rfl | hr
      · exact ⟨hop, hfirst⟩
      · exact hothers r hr
    · rename_i hop
      refine ⟨fun l hl ↦ ?_, hothers⟩
      rcases List.mem_cons.1 hl with rfl | hl
      · exact hop
      · exact hfirst l hl

/-- The operands of the runs are operands of the chain. -/
theorem mem_of_mem_runs (tier : Nat) (links : List Link) :
    (∀ l ∈ (runs tier links).1, l ∈ links) ∧
      ∀ r ∈ (runs tier links).2, (r.op, r.operand) ∈ links ∧ ∀ l ∈ r.rest, l ∈ links := by
  have hjoin := runs_join tier links
  refine ⟨fun l hl ↦ ?_, fun r hr ↦ ?_⟩
  · rw [← hjoin]
    exact List.mem_append_left _ hl
  · have hrun : ∀ l ∈ r.links, l ∈ links := by
      intro l hl
      rw [← hjoin]
      exact List.mem_append_right _ (List.mem_flatMap.2 ⟨r, hr, hl⟩)
    exact ⟨hrun _ List.mem_cons_self, fun l hl ↦ hrun l (List.mem_cons_of_mem _ hl)⟩

/-- At the lowest tier, all links but those that begin a run bind tighter. -/
theorem tier_lt_of_mem_runs {tier : Nat} {links : List Link} (h : ∀ l ∈ links, tier ≤ l.1.tier) :
    (∀ l ∈ (runs tier links).1, tier < l.1.tier) ∧
      ∀ r ∈ (runs tier links).2, ∀ l ∈ r.rest, tier < l.1.tier := by
  obtain ⟨hfirst, hothers⟩ := runs_spec tier links
  obtain ⟨hfirstMem, hothersMem⟩ := mem_of_mem_runs tier links
  exact ⟨fun l hl ↦ Nat.lt_of_le_of_ne (h l (hfirstMem l hl)) (hfirst l hl).symm,
    fun r hr l hl ↦ Nat.lt_of_le_of_ne (h l ((hothersMem r hr).2 l hl))
      ((hothers r hr).2 l hl).symm⟩

/-- A chain with the operators of the `n` highest tiers, grouped. -/
def bundle : Nat → Bool → Expr → List (Operator × Expr) → Expr
  | 0, introduced, head, links => chain introduced head links
  | n + 1, introduced, head, links =>
    if links.any fun l ↦ l.1.tier = 2 - n then
      let (first, others) := runs (2 - n) links
      chain introduced (if first.isEmpty then head else bundle n true head first)
        (others.map fun r ↦
          (r.op, if r.rest.isEmpty then r.operand else bundle n true r.operand r.rest))
    else bundle n introduced head links

/-- A property that chains hand on from their operands is handed on by a bundle. -/
theorem bundle_of_chain {P : Expr → Prop}
    (hP : ∀ (introduced : Bool) (head : Expr) (links : List Link),
      P head → (∀ l ∈ links, P l.2) → P (chain introduced head links))
    {n : Nat} {introduced : Bool} {head : Expr} {links : List Link} (hhead : P head)
    (hlinks : ∀ l ∈ links, P l.2) : P (bundle n introduced head links) := by
  induction n generalizing introduced head links with
  | zero => exact hP _ _ _ hhead hlinks
  | succ n ih =>
    obtain ⟨hfirst, hothers⟩ := mem_of_mem_runs (2 - n) links
    rw [bundle]
    split
    · refine hP _ _ _ ?_ fun l hl ↦ ?_
      · split
        · exact hhead
        · exact ih hhead fun l hl ↦ hlinks l (hfirst l hl)
      · obtain ⟨r, hr, rfl⟩ := List.mem_map.1 hl
        have hoperand := hlinks _ (hothers r hr).1
        dsimp only
        split
        · exact hoperand
        · exact ih hoperand fun l hl ↦ hlinks l ((hothers r hr).2 l hl)
    · exact ih hhead hlinks

mutual

/-- The expression with every chain grouped by tiers. -/
def group : Expr → Expr
  | const d => const d
  | chain introduced head links => bundle 3 introduced (group head) (groupLinks links)
  | call name procedure arguments => call name procedure (groupArguments arguments)

/-- The links of a chain with their operands grouped. -/
def groupLinks : List (Operator × Expr) → List (Operator × Expr)
  | [] => []
  | (op, e) :: rest => (op, group e) :: groupLinks rest

/-- The arguments of a call, grouped. -/
def groupArguments : List Expr → List Expr
  | [] => []
  | e :: rest => group e :: groupArguments rest

end

theorem groupLinks_eq_map (links : List Link) :
    groupLinks links = links.map fun l ↦ (l.1, group l.2) := by
  induction links with
  | nil => rfl
  | cons l links ih =>
    obtain ⟨op, e⟩ := l
    simp [groupLinks, ih]

theorem groupArguments_eq_map (es : List Expr) : groupArguments es = es.map group := by
  induction es with
  | nil => rfl
  | cons e es ih => simp [groupArguments, ih]

end Formula.Expr
