import Formula.Expr.Group
import Formula.Expr.Render
import Formula.Function.Builtin
import Formula.Proofs.Occurrence

/-!
# What grouping leaves

`Expr.group` goes through the tiers of operators from the lowest to the highest.  It can be
described in a way that does not know how many tiers there are: cut the chain at its lowest tier,
which packs the tighter links into chains of their own (`splitLowest`), and go on with all of the
parts, the old ones and the ones that have just been made.  This file shows that the two
descriptions agree (`group_eq`) and reads off the second one what a grouped expression looks like.

* `wellFounded_splitLowest` — going on with the parts comes to an end.  A new chain is no part of
  the old one, but it has fewer operators.
* `singleTier_group` — every chain has operators of one tier.
* `layered_group` — an introduced chain lies in another chain, and binds tighter than that.  So no
  more than two of them lie between a chain and an operand of it (`Below.le_two`).
* `group_eq_self_iff` — the expressions that grouping leaves as they are.
* `group_normalForm` — all of this together.
-/

set_option autoImplicit false

namespace Formula.Expr

/-! ## Cutting at the lowest tier -/

/-- An operand together with the tighter links that follow it, if there are any. -/
def pack (operand : Expr) (links : List Link) : Expr :=
  if links.isEmpty then operand else chain true operand links

/-- The lowest tier that the operators of some links belong to. -/
def lowestTier? (links : List Link) : Option Nat := (links.map fun l ↦ l.1.tier).min?

/-- A chain cut before every operator of a tier. -/
def cut (tier : Nat) (introduced : Bool) (head : Expr) (links : List Link) : Expr :=
  let (first, others) := runs tier links
  chain introduced (pack head first) (others.map fun r ↦ (r.op, pack r.operand r.rest))

/-- A chain cut before every operator of its lowest tier.  Other expressions are not cut. -/
def splitLowest : Expr → Expr
  | chain introduced head links =>
    match lowestTier? links with
    | none => chain introduced head links
    | some tier => cut tier introduced head links
  | e => e

theorem lowestTier?_eq_some_iff {links : List Link} {tier : Nat} :
    lowestTier? links = some tier ↔
      (∃ l ∈ links, l.1.tier = tier) ∧ ∀ l ∈ links, tier ≤ l.1.tier := by
  rw [lowestTier?, List.min?_eq_some_iff, List.mem_map, List.forall_mem_map]

theorem lowestTier?_eq_none_iff {links : List Link} : lowestTier? links = none ↔ links = [] := by
  rw [lowestTier?, List.min?_eq_none_iff, List.map_eq_nil_iff]

/-- A chain is cut, unless it is a single operand. -/
theorem splitLowest_chain (introduced : Bool) (head : Expr) (links : List Link) :
    links = [] ∧ splitLowest (chain introduced head links) = chain introduced head links ∨
      ∃ tier, lowestTier? links = some tier ∧
        splitLowest (chain introduced head links) = cut tier introduced head links := by
  rw [splitLowest]
  cases h : lowestTier? links with
  | none => exact .inl ⟨lowestTier?_eq_none_iff.1 h, rfl⟩
  | some tier => exact .inr ⟨tier, rfl, rfl⟩

@[simp]
theorem isIntroduced_splitLowest (e : Expr) : (splitLowest e).isIntroduced = e.isIntroduced := by
  cases e with
  | const d => rfl
  | call name procedure arguments => rfl
  | chain introduced head links =>
    obtain ⟨-, h⟩ | ⟨tier, -, h⟩ := splitLowest_chain introduced head links
    · rw [h]
    · rw [h]
      rfl

/-! ## What a cut leaves and what it makes -/

/-- An operator that a cut leaves is an operator of the tier. -/
theorem mem_operators_cut {tier : Nat} {introduced : Bool} {head : Expr} {links : List Link}
    {op : Operator} (h : op ∈ (cut tier introduced head links).operators) :
    op.tier = tier ∧ ∃ l ∈ links, l.1 = op := by
  simp only [cut, operators, List.map_map, List.mem_map, Function.comp_apply] at h
  obtain ⟨r, hr, rfl⟩ := h
  exact ⟨((runs_spec tier links).2 r hr).1, _, ((mem_of_mem_runs tier links).2 r hr).1, rfl⟩

/-- Every operator of the tier begins a run. -/
theorem operators_cut_ne_nil {tier : Nat} {links : List Link} (introduced : Bool) (head : Expr)
    (h : ∃ l ∈ links, l.1.tier = tier) : (cut tier introduced head links).operators ≠ [] := by
  obtain ⟨l, hl, htier⟩ := h
  simp only [cut, operators, ne_eq, List.map_eq_nil_iff]
  intro hnil
  have hjoin := runs_join tier links
  rw [hnil, List.flatMap_nil, List.append_nil] at hjoin
  rw [← hjoin] at hl
  exact (runs_spec tier links).1 l hl htier

theorem length_runs (tier : Nat) (links : List Link) :
    (runs tier links).1.length + (runs tier links).2.length ≤ links.length ∧
      ∀ r ∈ (runs tier links).2, r.rest.length < links.length := by
  induction links with
  | nil => simp [runs]
  | cons l links ih =>
    obtain ⟨op, e⟩ := l
    obtain ⟨hfirst, hothers⟩ := ih
    simp only [runs]
    split
    · refine ⟨by simp only [List.length_cons, List.length_nil]; omega, fun r hr ↦ ?_⟩
      rcases List.mem_cons.1 hr with rfl | hr
      · simp only [List.length_cons]
        omega
      · exact Nat.lt_succ_of_lt (hothers r hr)
    · exact ⟨by simp only [List.length_cons]; omega, fun r hr ↦ Nat.lt_succ_of_lt (hothers r hr)⟩

/-- What is to be known of a chain that is made when `e` is cut. -/
structure SplitOff (e p : Expr) : Prop where
  isIntroduced : p.isIntroduced
  /-- Its operands are operands of `e`. -/
  parts_subset : ∀ q ∈ p.parts, q ∈ e.parts
  operators_ne_nil : p.operators ≠ []
  length_lt : p.operators.length < e.operators.length
  /-- There are operators left outside of it, and they bind less tightly. -/
  outer_ne_nil : (splitLowest e).operators ≠ []
  tier_lt : ∀ op ∈ (splitLowest e).operators, ∀ op' ∈ p.operators, op.tier < op'.tier

/-- Packing an operand with tighter links of the chain makes a chain that is split off. -/
theorem splitOff_pack {introduced : Bool} {head operand : Expr} {links run : List Link} {tier : Nat}
    (htier : lowestTier? links = some tier) (hoperand : operand ∈ head :: links.map Prod.snd)
    (hrun : ∀ l ∈ run, l ∈ links) (hlt : ∀ l ∈ run, tier < l.1.tier)
    (hlength : run.length < links.length) :
    pack operand run = operand ∨ SplitOff (chain introduced head links) (pack operand run) := by
  rw [pack]
  split
  · exact .inl rfl
  · rename_i hne
    have hsplit : splitLowest (chain introduced head links) = cut tier introduced head links := by
      rw [splitLowest, htier]
    refine .inr ⟨rfl, fun q hq ↦ ?_, by simpa [operators] using hne, by simpa [operators], ?_, ?_⟩
    · rcases List.mem_cons.1 hq with rfl | hq
      · exact hoperand
      · obtain ⟨l, hl, rfl⟩ := List.mem_map.1 hq
        exact List.mem_cons_of_mem _ (List.mem_map_of_mem (hrun l hl))
    · rw [hsplit]
      exact operators_cut_ne_nil introduced head (lowestTier?_eq_some_iff.1 htier).1
    · intro op hop op' hop'
      rw [hsplit] at hop
      obtain ⟨l, hl, rfl⟩ := List.mem_map.1 hop'
      rw [(mem_operators_cut hop).1]
      exact hlt l hl

/-- **A part of a chain that has been cut is an old part, or a chain that was split off.** -/
theorem mem_parts_splitLowest {e p : Expr} (h : p ∈ (splitLowest e).parts) :
    p ∈ e.parts ∨ SplitOff e p := by
  cases e with
  | const d => exact .inl h
  | call name procedure arguments => exact .inl h
  | chain introduced head links =>
    obtain ⟨-, hsplit⟩ | ⟨tier, htier, hsplit⟩ := splitLowest_chain introduced head links
    · rw [hsplit] at h
      exact .inl h
    · have hpart : ∀ {operand : Expr} {run : List Link}, operand ∈ head :: links.map Prod.snd →
          (∀ l ∈ run, l ∈ links) → (∀ l ∈ run, tier < l.1.tier) → run.length < links.length →
          p = pack operand run → p ∈ head :: links.map Prod.snd ∨
            SplitOff (chain introduced head links) p := by
        rintro operand run hoperand hrun hlt hlength rfl
        rcases splitOff_pack htier hoperand hrun hlt hlength with h | h
        · exact .inl (by rwa [h])
        · exact .inr h
      obtain ⟨hexists, hle⟩ := lowestTier?_eq_some_iff.1 htier
      obtain ⟨hfirstLt, hothersLt⟩ := tier_lt_of_mem_runs hle
      obtain ⟨hfirstMem, hothersMem⟩ := mem_of_mem_runs tier links
      obtain ⟨hlength, hlengths⟩ := length_runs tier links
      have hne := operators_cut_ne_nil introduced head hexists
      simp only [cut, operators, ne_eq, List.map_eq_nil_iff] at hne
      have hpos := List.length_pos_iff.2 hne
      rw [hsplit] at h
      simp only [cut, parts, List.map_map, List.mem_cons, List.mem_map, Function.comp_apply] at h
      rcases h with h | ⟨r, hr, h⟩
      · exact hpart List.mem_cons_self hfirstMem hfirstLt (by omega) h
      · exact hpart (List.mem_cons_of_mem _ (List.mem_map_of_mem (hothersMem r hr).1))
          (hothersMem r hr).2 (hothersLt r hr) (hlengths r hr) h.symm

/-- **Cutting at the lowest tier and going on with the parts comes to an end.** -/
theorem wellFounded_splitLowest : WellFounded fun p e : Expr ↦ p ∈ (splitLowest e).parts := by
  refine ⟨fun e ↦ ?_⟩
  induction e using parts_induction with
  | step e ih =>
    -- a chain that is split off is no part of `e`, but all of its operands are
    have hchain : ∀ (n : Nat) (c : Expr), c.operators.length = n → (∀ q ∈ c.parts, q ∈ e.parts) →
        Acc (fun p e : Expr ↦ p ∈ (splitLowest e).parts) c := by
      intro n
      induction n using Nat.strongRecOn with
      | ind n ihLength =>
        rintro c rfl hparts
        refine ⟨_, fun p hp ↦ ?_⟩
        rcases mem_parts_splitLowest hp with hp | hp
        · exact ih p (hparts p hp)
        · exact ihLength _ hp.length_lt p rfl fun q hq ↦ hparts q (hp.parts_subset q hq)
    exact hchain _ e rfl fun q hq ↦ hq

/-- What holds of an expression whenever it holds of the parts after a cut holds of all. -/
@[elab_as_elim]
theorem splitLowest_induction {motive : Expr → Prop}
    (step : ∀ e : Expr, (∀ p ∈ (splitLowest e).parts, motive p) → motive e) (e : Expr) : motive e :=
  wellFounded_splitLowest.induction e step

/-! ## Grouping, tier by tier -/

/-- Tiers that no operator belongs to make no difference. -/
theorem bundle_of_le {n m : Nat} (hnm : n ≤ m) (hm : m ≤ 3) (introduced : Bool) (head : Expr)
    {links : List Link} (hlinks : ∀ l ∈ links, 3 - n ≤ l.1.tier) :
    bundle m introduced head links = bundle n introduced head links := by
  induction hnm with
  | refl => rfl
  | @step m hnm ih =>
    have hany : ¬ (links.any fun l ↦ l.1.tier = 2 - m) = true := by
      simp only [List.any_eq_true, decide_eq_true_eq, not_exists, not_and]
      intro l hl htier
      have := hlinks l hl
      have : n ≤ m := hnm
      omega
    rw [bundle, if_neg hany]
    exact ih (by omega)

theorem runs_groupLinks (tier : Nat) (links : List Link) :
    runs tier (groupLinks links) = (groupLinks (runs tier links).1,
      (runs tier links).2.map fun r ↦ ⟨r.op, group r.operand, groupLinks r.rest⟩) := by
  induction links with
  | nil => rfl
  | cons l links ih =>
    obtain ⟨op, e⟩ := l
    simp only [groupLinks, runs, ih]
    split <;> simp [groupLinks]

/-- A run that is packed is grouped like any other chain. -/
theorem group_pack {n : Nat} (hn : n ≤ 3) (operand : Expr) {links : List Link}
    (hlinks : ∀ l ∈ links, 3 - n ≤ l.1.tier) :
    group (pack operand links) = if (groupLinks links).isEmpty then group operand
      else bundle n true (group operand) (groupLinks links) := by
  have hempty : (groupLinks links).isEmpty = links.isEmpty := by rw [groupLinks_eq_map]; simp
  rw [pack, hempty]
  split
  · rfl
  · refine bundle_of_le hn (Nat.le_refl 3) true _ fun l hl ↦ ?_
    rw [groupLinks_eq_map] at hl
    obtain ⟨l', hl', rfl⟩ := List.mem_map.1 hl
    exact hlinks l' hl'

/-- One step down through the tiers is a cut, if there are operators of the tier. -/
theorem bundle_groupLinks {n : Nat} (hn : n ≤ 2) (introduced : Bool) (head : Expr)
    {links : List Link} (hexists : ∃ l ∈ links, l.1.tier = 2 - n)
    (hle : ∀ l ∈ links, 2 - n ≤ l.1.tier) :
    bundle (n + 1) introduced (group head) (groupLinks links) =
      mapParts group (cut (2 - n) introduced head links) := by
  have hany : ((groupLinks links).any fun l ↦ l.1.tier = 2 - n) = true := by
    obtain ⟨l, hl, htier⟩ := hexists
    rw [groupLinks_eq_map, List.any_map, List.any_eq_true]
    exact ⟨l, hl, by simp [htier]⟩
  obtain ⟨hfirst, hothers⟩ := tier_lt_of_mem_runs hle
  have hhead := group_pack (Nat.le_succ_of_le hn) head fun l hl ↦ by
    have := hfirst l hl
    omega
  have hrest : ∀ r ∈ (runs (2 - n) links).2, group (pack r.operand r.rest) =
      if (groupLinks r.rest).isEmpty then group r.operand
      else bundle n true (group r.operand) (groupLinks r.rest) :=
    fun r hr ↦ group_pack (Nat.le_succ_of_le hn) r.operand fun l hl ↦ by
      have := hothers r hr l hl
      omega
  rw [bundle, if_pos hany, runs_groupLinks, cut, mapParts, hhead]
  dsimp only
  rw [List.map_map, List.map_map]
  refine congrArg _ (List.map_congr_left fun r hr ↦ ?_)
  exact Prod.ext rfl (hrest r hr).symm

/-- **Grouping is cutting at the lowest tier, and grouping the parts.** -/
theorem group_eq (e : Expr) : group e = mapParts group (splitLowest e) := by
  cases e with
  | const d => rfl
  | call name procedure arguments =>
    show call name procedure (groupArguments arguments) = _
    rw [groupArguments_eq_map]
    rfl
  | chain introduced head links =>
    obtain ⟨rfl, hsplit⟩ | ⟨tier, htier, hsplit⟩ := splitLowest_chain introduced head links
    · rw [hsplit]
      rfl
    · obtain ⟨hexists, hle⟩ := lowestTier?_eq_some_iff.1 htier
      -- the tier is reached after `n + 1` of the three steps, if the ones before do nothing
      obtain ⟨n, hn, rfl⟩ : ∃ n, n ≤ 2 ∧ tier = 2 - n := by
        obtain ⟨l, -, rfl⟩ := hexists
        have := l.1.tier_lt
        exact ⟨2 - l.1.tier, by omega, by omega⟩
      have hlinks : ∀ l ∈ groupLinks links, 3 - (n + 1) ≤ l.1.tier := by
        intro l hl
        rw [groupLinks_eq_map] at hl
        obtain ⟨l', hl', rfl⟩ := List.mem_map.1 hl
        have := hle l' hl'
        dsimp only
        omega
      rw [group, bundle_of_le (by omega : n + 1 ≤ 3) (Nat.le_refl 3) introduced _ hlinks,
        bundle_groupLinks hn introduced head hexists hle, hsplit]

@[simp]
theorem isIntroduced_group (e : Expr) : (group e).isIntroduced = e.isIntroduced := by
  rw [group_eq, isIntroduced_mapParts, isIntroduced_splitLowest]

theorem operators_group (e : Expr) : (group e).operators = (splitLowest e).operators := by
  rw [group_eq, operators_mapParts]

/-! ## Chains of one tier -/

/-- The operators of the chain belong to one tier. -/
def OneTier (e : Expr) : Prop := ∀ op ∈ e.operators, ∀ op' ∈ e.operators, op.tier = op'.tier

/-- Every chain, at any depth, has operators of one tier. -/
def SingleTier : Expr → Prop := Everywhere OneTier

theorem oneTier_splitLowest (e : Expr) : OneTier (splitLowest e) := by
  cases e with
  | const d => simp [OneTier, splitLowest, operators]
  | call name procedure arguments => simp [OneTier, splitLowest, operators]
  | chain introduced head links =>
    intro op hop op' hop'
    obtain ⟨rfl, hsplit⟩ | ⟨tier, -, hsplit⟩ := splitLowest_chain introduced head links
    · rw [hsplit] at hop
      cases hop
    · rw [hsplit] at hop hop'
      rw [(mem_operators_cut hop).1, (mem_operators_cut hop').1]

/-- **After grouping, every chain has operators of one tier.** -/
theorem singleTier_group (e : Expr) : SingleTier (group e) := by
  induction e using splitLowest_induction with
  | step e ih =>
    rw [SingleTier, everywhere_iff]
    refine ⟨?_, fun p hp ↦ ?_⟩
    · rw [OneTier, operators_group]
      exact oneTier_splitLowest e
    · rw [group_eq, parts_mapParts] at hp
      obtain ⟨q, hq, rfl⟩ := List.mem_map.1 hp
      exact ih q hq

/-- Links of one tier are cut into single links. -/
theorem runs_of_forall {tier : Nat} {links : List Link} (h : ∀ l ∈ links, l.1.tier = tier) :
    runs tier links = ([], links.map fun l ↦ ⟨l.1, l.2, []⟩) := by
  induction links with
  | nil => rfl
  | cons l links ih =>
    obtain ⟨op, e⟩ := l
    have hop : op.tier = tier := h (op, e) List.mem_cons_self
    simp [runs, ih fun l hl ↦ h l (List.mem_cons_of_mem _ hl), hop]

theorem splitLowest_of_oneTier {e : Expr} (h : OneTier e) : splitLowest e = e := by
  cases e with
  | const d => rfl
  | call name procedure arguments => rfl
  | chain introduced head links =>
    obtain ⟨-, hsplit⟩ | ⟨tier, htier, hsplit⟩ := splitLowest_chain introduced head links
    · exact hsplit
    · obtain ⟨⟨l, hl, rfl⟩, -⟩ := lowestTier?_eq_some_iff.1 htier
      have hall : ∀ l' ∈ links, l'.1.tier = l.1.tier := fun l' hl' ↦
        h _ (List.mem_map_of_mem hl') _ (List.mem_map_of_mem hl)
      rw [hsplit, cut, runs_of_forall hall]
      simp [pack, Function.comp_def]

theorem group_of_singleTier {e : Expr} (h : SingleTier e) : group e = e := by
  induction e using parts_induction with
  | step e ih =>
    rw [group_eq, splitLowest_of_oneTier h.self]
    exact mapParts_eq_self fun p hp ↦ ih p hp (h.part p hp)

/-- **Grouping leaves an expression as it is exactly if there is nothing to group.** -/
theorem group_eq_self_iff {e : Expr} : group e = e ↔ SingleTier e :=
  ⟨fun h ↦ h ▸ singleTier_group e, group_of_singleTier⟩

/-- Grouping again changes nothing. -/
theorem group_group (e : Expr) : group (group e) = group e :=
  group_of_singleTier (singleTier_group e)

/-! ## Introduced chains -/

/-- No chain was introduced: each stands for parentheses, or is the whole expression. -/
def AsWritten : Expr → Prop := Everywhere fun e ↦ e.isIntroduced = false

/-- The introduced chains among the parts are operands, not arguments.  Each has operators, and they
bind tighter than those around it. -/
def Layered (outer : Expr) : Prop :=
  ∀ inner ∈ outer.parts, inner.isIntroduced → inner.operators ≠ [] ∧ outer.operators ≠ [] ∧
    ∀ op ∈ inner.operators, ∀ op' ∈ outer.operators, op'.tier < op.tier

/-- A chain that is cut keeps some of its operators and gets no others. -/
theorem operators_splitLowest (e : Expr) :
    (∀ op ∈ (splitLowest e).operators, op ∈ e.operators) ∧
      (e.operators ≠ [] → (splitLowest e).operators ≠ []) := by
  cases e with
  | const d => exact ⟨fun _ h ↦ h, id⟩
  | call name procedure arguments => exact ⟨fun _ h ↦ h, id⟩
  | chain introduced head links =>
    obtain ⟨-, hsplit⟩ | ⟨tier, htier, hsplit⟩ := splitLowest_chain introduced head links
    · rw [hsplit]
      exact ⟨fun _ h ↦ h, id⟩
    · rw [hsplit]
      refine ⟨fun op hop ↦ ?_, fun _ ↦ ?_⟩
      · obtain ⟨-, l, hl, rfl⟩ := mem_operators_cut hop
        exact List.mem_map_of_mem hl
      · exact operators_cut_ne_nil introduced head (lowestTier?_eq_some_iff.1 htier).1

/-- **Introduced chains bind tighter than what is around them**, if none of them were there
before. -/
theorem layered_group {e : Expr} (h : ∀ p ∈ e.parts, AsWritten p) :
    Everywhere Layered (group e) := by
  induction e using splitLowest_induction with
  | step e ih =>
    rw [everywhere_iff]
    refine ⟨fun inner hinner hintroduced ↦ ?_, fun inner hinner ↦ ?_⟩
    · rw [group_eq, parts_mapParts] at hinner
      obtain ⟨p, hp, rfl⟩ := List.mem_map.1 hinner
      rw [isIntroduced_group] at hintroduced
      rw [operators_group, operators_group]
      rcases mem_parts_splitLowest hp with hp | hp
      · rw [(h p hp).self] at hintroduced
        cases hintroduced
      · obtain ⟨hsubset, hne⟩ := operators_splitLowest p
        exact ⟨hne hp.operators_ne_nil, hp.outer_ne_nil,
          fun op hop op' hop' ↦ hp.tier_lt op' hop' op (hsubset op hop)⟩
    · rw [group_eq, parts_mapParts] at hinner
      obtain ⟨p, hp, rfl⟩ := List.mem_map.1 hinner
      refine ih p hp fun q hq ↦ ?_
      rcases mem_parts_splitLowest hp with hp | hp
      · exact (h p hp).part q hq
      · exact h q (hp.parts_subset q hq)

/-- `Below n outer e`: between `outer` and the expression `e` inside of it there are `n` chains, one
in the other, and all of them were introduced. -/
inductive Below : Nat → Expr → Expr → Prop
  | part {outer e : Expr} : e ∈ outer.parts → Below 0 outer e
  | through {n : Nat} {outer inner e : Expr} : inner ∈ outer.parts → inner.isIntroduced →
      Below n inner e → Below (n + 1) outer e

/-- Each introduced chain takes up a tier. -/
theorem Below.tier_add_le {n : Nat} {outer e : Expr} (h : Below n outer e)
    (hlayered : Everywhere Layered outer) : ∀ op ∈ outer.operators, op.tier + n ≤ 2 := by
  induction h with
  | part =>
    intro op _
    have := op.tier_lt
    omega
  | @through n outer inner e hinner hintroduced _ ih =>
    intro op hop
    obtain ⟨hne, -, htier⟩ := hlayered.self inner hinner hintroduced
    obtain ⟨op', hop'⟩ := List.exists_mem_of_ne_nil _ hne
    have hlt := htier op' hop' op hop
    have hle := ih (hlayered.part inner hinner) op' hop'
    omega

/-- **At most two introduced chains lie between a chain and an operand of it.** -/
theorem Below.le_two {n : Nat} {outer e : Expr} (h : Below n outer e)
    (hlayered : Everywhere Layered outer) : n ≤ 2 := by
  cases h with
  | part => exact Nat.zero_le 2
  | through hinner hintroduced hbelow =>
    obtain ⟨-, hne, -⟩ := hlayered.self _ hinner hintroduced
    obtain ⟨op, hop⟩ := List.exists_mem_of_ne_nil _ hne
    have := (Below.through hinner hintroduced hbelow).tier_add_le hlayered op hop
    omega

/-! ## The normal form -/

/-- **The normal form of grouping.**  Cutting a chain at its lowest tier and going on with the parts
comes to an end, and this is what grouping does.  After it, every chain has operators of one tier.
Where no chain was introduced before, those that are introduced have operators and bind tighter than
the chain that they lie in, the whole expression is none of them, and at most two of them lie
between a chain and an operand of it.  Grouping again changes nothing, and grouping changes nothing
at all exactly if every chain was of one tier. -/
theorem group_normalForm :
    (WellFounded fun p e : Expr ↦ p ∈ (splitLowest e).parts) ∧
      (∀ e, group e = mapParts group (splitLowest e)) ∧
      (∀ e, SingleTier (group e)) ∧
      (∀ e, AsWritten e → (group e).isIntroduced = false ∧ Everywhere Layered (group e) ∧
        ∀ outer, Occurs outer (group e) → ∀ n operand, Below n outer operand → n ≤ 2) ∧
      (∀ e, group (group e) = group e) ∧ ∀ e, group e = e ↔ SingleTier e := by
  refine ⟨wellFounded_splitLowest, group_eq, singleTier_group, fun e he ↦ ?_, group_group,
    fun e ↦ group_eq_self_iff⟩
  have hlayered : Everywhere Layered (group e) := layered_group he.part
  refine ⟨(isIntroduced_group e).trans he.self, hlayered, fun outer houter n operand hbelow ↦ ?_⟩
  exact hbelow.le_two fun p hp ↦ hlayered p (hp.trans houter)

/-- `IF(1, 2 + 3 * 4 ^ 5, 6) * 7 - 8` -/
def conditionalProduct : Expr :=
  chain false (call "if" .choose [const (.ofInt 1), chain false (const (.ofInt 2))
      [(.plus, const (.ofInt 3)), (.times, const (.ofInt 4)), (.power, const (.ofInt 5))],
      const (.ofInt 6)])
    [(.times, const (.ofInt 7)), (.minus, const (.ofInt 8))]

/-- One chain is introduced for the head, and two, one in the other, inside of an argument. -/
theorem group_normalForm_conditionalProduct :
    (group conditionalProduct).text = "({if(1, (2 + {3 * {4 ^ 5}}), 6) * 7} - 8)" ∧
      AsWritten conditionalProduct ∧ Everywhere Layered (group conditionalProduct) := by
  have hwritten : AsWritten conditionalProduct := by
    simp [AsWritten, conditionalProduct, isIntroduced]
  exact ⟨by decide +kernel, hwritten, (group_normalForm.2.2.2.1 conditionalProduct hwritten).2.1⟩

end Formula.Expr
