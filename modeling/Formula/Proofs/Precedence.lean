import Formula.Expr.Eval
import Formula.Expr.Group
import Formula.Function.Builtin
import Formula.Settings

/-!
# Precedence

The calculator gives operators their precedence by changing the expression: `Expr.group` packs every
run of tighter operators into a chain of its own, and after that all chains are folded from left to
right.  This file says what an expression is worth *without* changing it, and that the two agree.

* `Expr.worth` reads every chain `head op operand op operand …` by the usual grammar, as a sum of
  products of powers, and folds each of the three levels from left to right.  `Expr.power`,
  `Expr.product` and `Expr.sum` are the three rules of that grammar.
* `Expr.eval_group` — evaluating the grouped expression gives exactly that outcome: the same
  decimal, with its sign and its exponent, or the same failure.

A procedure may look at the text of its arguments, and the text of a grouped argument is not that of
the argument as it is written.  So the agreement is for procedures that know their arguments only by
their values (`Procedure.ByValue`), as the built-in ones do.

The proof follows the tiers.  `Splits n reader` says of a reader of phrases what `Expr.bundle n`
does to a chain; it holds of the reader of single operands for `n = 0`, and one rule of the grammar
carries it from `n` to `n + 1`.
-/

set_option autoImplicit false

namespace Formula

/-! ## Procedures that only ask for values -/

/-- The procedure learns nothing of its arguments but their values, at whatever scales it asks for
them. -/
def Procedure.ByValue (p : Procedure) : Prop :=
  ∀ (as bs : List Argument), as.map Argument.value = bs.map Argument.value →
    ∀ scale, p as scale = p bs scale

/-- An argument with these values, whose text is of no use. -/
def Argument.ofValue (value : Int → Except Failure Decimal) : Argument := ⟨value, fun _ ↦ ""⟩

namespace Procedure

/-- It is enough that nothing changes when the texts of the arguments are lost. -/
theorem ByValue.of_forall {p : Procedure}
    (h : ∀ as scale, p as scale = p ((as.map Argument.value).map Argument.ofValue) scale) :
    p.ByValue := by
  intro as bs hvalues scale
  rw [h, h bs, hvalues]

theorem byValue_sine (ar : Arithmetic) : ByValue (sine ar) := by
  refine .of_forall ?_
  rintro (_ | ⟨_, _ | ⟨_, _⟩⟩) scale <;> rfl

theorem byValue_choose : ByValue choose := by
  refine .of_forall ?_
  rintro (_ | ⟨_, _ | ⟨_, _ | ⟨_, _ | ⟨_, _⟩⟩⟩⟩) scale <;> rfl

theorem byValue_round (ar : Arithmetic) : ByValue (round ar) := by
  refine .of_forall ?_
  rintro (_ | ⟨_, _ | ⟨_, _ | ⟨_, _⟩⟩⟩) scale <;> rfl

end Procedure

namespace Expr

mutual

/-- All calls in the expression are of procedures that only ask for values. -/
def ByValue : Expr → Prop
  | const _ => True
  | chain _ head links => ByValue head ∧ LinksByValue links
  | call _ procedure arguments => procedure.ByValue ∧ ArgumentsByValue arguments

/-- `ByValue` for all operands of a chain. -/
def LinksByValue : List (Operator × Expr) → Prop
  | [] => True
  | (_, e) :: rest => ByValue e ∧ LinksByValue rest

/-- `ByValue` for all arguments of a call. -/
def ArgumentsByValue : List Expr → Prop
  | [] => True
  | e :: rest => ByValue e ∧ ArgumentsByValue rest

end

/-! ## The grammar of chains -/

/-- The value of an operand, or why it has none. -/
abbrev Outcome := Except Failure Decimal

/-- An operator and the outcome of the operand to its right. -/
abbrev Step := Operator × Outcome

variable (ar : Arithmetic) (scale : Int)

/-- An operator between two operands.  The failure of the left one is reported first. -/
def combine (op : Operator) (x y : Outcome) : Outcome := do op.apply ar (← x) (← y) scale

/-- What has been read from a list of steps: the outcome so far, and the steps that are left. -/
structure Phrase (steps : List Step) where
  outcome : Outcome
  rest : List Step
  length_le : rest.length ≤ steps.length

/-- How a kind of phrase is read, given its first operand and the steps that follow. -/
abbrev Phrase.Reader := Outcome → (steps : List Step) → Phrase steps

/-- The longest list `op part op part …` with operators of one tier, folded from left to right onto
the outcome of the part before it. -/
def fold (tier : Nat) (part : Phrase.Reader) (x : Outcome) (steps : List Step) : Phrase steps :=
  match steps with
  | [] => ⟨x, [], Nat.le_refl _⟩
  | (op, y) :: steps =>
    if op.tier = tier then
      let right := part y steps
      let all := fold tier part (combine ar scale op x right.outcome) right.rest
      ⟨all.outcome, all.rest, Nat.le_succ_of_le (Nat.le_trans all.length_le right.length_le)⟩
    else ⟨x, (op, y) :: steps, Nat.le_refl _⟩
termination_by steps.length
decreasing_by exact Nat.lt_succ_of_le right.length_le

/-- A phrase `Part (op Part)*` with operators of one tier. -/
def phrase (tier : Nat) (part : Phrase.Reader) : Phrase.Reader := fun x steps ↦
  let first := part x steps
  let all := fold ar scale tier part first.outcome first.rest
  ⟨all.outcome, all.rest, Nat.le_trans all.length_le first.length_le⟩

/-- A single operand. -/
def operand : Phrase.Reader := fun x steps ↦ ⟨x, steps, Nat.le_refl _⟩

/-- `Power = Operand (^ Operand)*` -/
def power : Phrase.Reader := phrase ar scale 2 operand

/-- `Product = Power ((* | /) Power)*` -/
def product : Phrase.Reader := phrase ar scale 1 (power ar scale)

/-- `Sum = Product ((+ | -) Product)*` -/
def sum : Phrase.Reader := phrase ar scale 0 (product ar scale)

mutual

/-- The value of an expression in which every chain is read as a sum. -/
def worth (ar : Arithmetic) : Expr → Int → Outcome
  | const d, _ => .ok d
  | chain _ head links, scale =>
    (sum ar scale (worth ar head scale) (worthLinks ar links scale)).outcome
  | call name procedure arguments, scale => do
    (← procedure (worthArguments ar arguments) scale).checked name

/-- The operators of a chain with the values of their right operands. -/
def worthLinks (ar : Arithmetic) : List (Operator × Expr) → Int → List Step
  | [], _ => []
  | (op, e) :: rest, scale => (op, worth ar e scale) :: worthLinks ar rest scale

/-- The arguments of a call as its procedure sees them. -/
def worthArguments (ar : Arithmetic) : List Expr → List Argument
  | [] => []
  | e :: rest => ⟨fun scale ↦ worth ar e scale, fun _ ↦ e.text⟩ :: worthArguments ar rest

end

/-! ## Chains as outcomes -/

/-- The operators of a chain with the outcomes of their right operands. -/
def steps (links : List Link) : List Step := links.map fun l ↦ (l.1, eval ar l.2 scale)

/-- A list of steps, folded from left to right. -/
def foldSteps (x : Outcome) (ss : List Step) : Outcome :=
  ss.foldl (fun x s ↦ combine ar scale s.1 x s.2) x

theorem bind_evalLinks (x : Outcome) (links : List Link) :
    (x.bind fun d ↦ evalLinks ar d links scale) = foldSteps ar scale x (steps ar scale links) := by
  induction links generalizing x with
  | nil => cases x <;> rfl
  | cons l links ih =>
    obtain ⟨op, e⟩ := l
    show _ = foldSteps ar scale (combine ar scale op x (eval ar e scale)) (steps ar scale links)
    rw [← ih]
    cases x with
    | error f => rfl
    | ok d => cases h : eval ar e scale <;> simp [evalLinks, combine, bind, Except.bind, h]

theorem eval_chain (introduced : Bool) (head : Expr) (links : List Link) :
    eval ar (chain introduced head links) scale =
      foldSteps ar scale (eval ar head scale) (steps ar scale links) := by
  rw [← bind_evalLinks]
  rfl

/-! ## Cutting a chain into runs -/

/-- Without operators of the tier there is nothing to cut. -/
theorem runs_of_not_any {tier : Nat} {links : List Link}
    (h : ¬ links.any (fun l ↦ l.1.tier = tier) = true) : runs tier links = (links, []) := by
  induction links with
  | nil => rfl
  | cons l links ih =>
    obtain ⟨op, e⟩ := l
    simp only [List.any_cons, Bool.or_eq_true, decide_eq_true_eq, not_or] at h
    simp only [runs, ih h.2, if_neg h.1]

/-- The outcome of a run: its operator, and what its operand and the tighter links are worth
together. -/
def runStep (n : Nat) (r : Run) : Step := (r.op, eval ar (bundle n true r.operand r.rest) scale)

/-- A bundle of a single operand is worth as much as the operand. -/
theorem eval_bundle_nil (n : Nat) (introduced : Bool) (head : Expr) :
    eval ar (bundle n introduced head []) scale = eval ar head scale := by
  induction n with
  | zero => rw [bundle, eval_chain]; rfl
  | succ n ih => simpa [bundle] using ih

/-- Whether a chain is marked as introduced has no influence on its value. -/
theorem eval_bundle_introduced (n : Nat) (i j : Bool) (head : Expr) (links : List Link) :
    eval ar (bundle n i head links) scale = eval ar (bundle n j head links) scale := by
  induction n with
  | zero => rfl
  | succ n ih =>
    simp only [bundle]
    split
    · rfl
    · exact ih

/-- The value of a bundle is a fold over the runs of its lowest tier. -/
theorem eval_bundle_succ (n : Nat) (introduced : Bool) (head : Expr) (links : List Link) :
    eval ar (bundle (n + 1) introduced head links) scale =
      foldSteps ar scale (eval ar (bundle n true head (runs (2 - n) links).1) scale)
        ((runs (2 - n) links).2.map (runStep ar scale n)) := by
  rw [bundle]
  split
  · have hfirst : eval ar (if (runs (2 - n) links).1.isEmpty then head
        else bundle n true head (runs (2 - n) links).1) scale =
        eval ar (bundle n true head (runs (2 - n) links).1) scale := by
      split
      · rename_i h
        rw [List.isEmpty_iff.1 h, eval_bundle_nil]
      · rfl
    have hrun : ∀ r : Run, eval ar (if r.rest.isEmpty then r.operand
        else bundle n true r.operand r.rest) scale = (runStep ar scale n r).2 := by
      intro r
      split
      · rename_i h
        rw [runStep, List.isEmpty_iff.1 h, eval_bundle_nil]
      · rfl
    rw [eval_chain, hfirst, steps, List.map_map]
    congr 1
    exact List.map_congr_left fun r _ ↦ Prod.ext rfl (hrun r)
  · rename_i h
    rw [runs_of_not_any h, eval_bundle_introduced ar scale n introduced true]
    rfl

/-! ## Reading a chain by the grammar -/

/-- The reader takes exactly the operators of the `n` highest tiers, and what it takes is worth as
much as the bundle of it. -/
def Splits (n : Nat) (part : Phrase.Reader) : Prop :=
  ∀ (head : Expr) (links : List Link) (stop : List Step),
    (∀ l ∈ links, 3 - n ≤ l.1.tier) → (∀ s ∈ stop.head?, s.1.tier < 3 - n) →
      (part (eval ar head scale) (steps ar scale links ++ stop)).outcome =
          eval ar (bundle n true head links) scale ∧
        (part (eval ar head scale) (steps ar scale links ++ stop)).rest = stop

theorem splits_operand : Splits ar scale 0 operand := by
  intro head links stop hlinks _
  obtain rfl : links = [] := by
    refine List.eq_nil_iff_forall_not_mem.2 fun l hl ↦ ?_
    have := hlinks l hl
    have := l.1.tier_lt
    omega
  exact ⟨(eval_bundle_nil ar scale 0 true head).symm, rfl⟩

theorem fold_of_lower {tier : Nat} (part : Phrase.Reader) (x : Outcome) {stop : List Step}
    (h : ∀ s ∈ stop.head?, s.1.tier < tier) :
    (fold ar scale tier part x stop).outcome = x ∧
      (fold ar scale tier part x stop).rest = stop := by
  cases stop with
  | nil => rw [fold]; exact ⟨rfl, rfl⟩
  | cons s stop =>
    have hs : s.1.tier ≠ tier := Nat.ne_of_lt (h s rfl)
    rw [fold, if_neg hs]
    exact ⟨rfl, rfl⟩

/-- What follows a run is the operator of the next run, or the end of the phrase. -/
theorem tier_lt_of_head?_runs {n : Nat} (hn : n < 3) {rs : List Run} {stop : List Step}
    (hrs : ∀ r ∈ rs, r.op.tier = 2 - n) (hstop : ∀ s ∈ stop.head?, s.1.tier < 2 - n) :
    ∀ s ∈ (steps ar scale (rs.flatMap Run.links) ++ stop).head?, s.1.tier < 3 - n := by
  intro s hs
  cases rs with
  | nil =>
    have := hstop s hs
    omega
  | cons r rs =>
    obtain rfl : (r.op, eval ar r.operand scale) = s := by simpa [steps, Run.links] using hs
    have := hrs r List.mem_cons_self
    show r.op.tier < 3 - n
    omega

/-- Folding over the runs of a tier, if the parts between its operators are bundled. -/
theorem fold_runs {n : Nat} {part : Phrase.Reader} (hn : n < 3) (hpart : Splits ar scale n part)
    {stop : List Step} (hstop : ∀ s ∈ stop.head?, s.1.tier < 2 - n) :
    ∀ (rs : List Run) (x : Outcome),
      (∀ r ∈ rs, r.op.tier = 2 - n ∧ ∀ l ∈ r.rest, 3 - n ≤ l.1.tier) →
      (fold ar scale (2 - n) part x (steps ar scale (rs.flatMap Run.links) ++ stop)).outcome =
          foldSteps ar scale x (rs.map (runStep ar scale n)) ∧
        (fold ar scale (2 - n) part x (steps ar scale (rs.flatMap Run.links) ++ stop)).rest = stop
  | [], x, _ => fold_of_lower ar scale part x hstop
  | r :: rs, x, hrs => by
    obtain ⟨hop, hrest⟩ := hrs r List.mem_cons_self
    have ih := fold_runs hn hpart hstop rs (combine ar scale r.op x (runStep ar scale n r).2)
      fun r' hr' ↦ hrs r' (List.mem_cons_of_mem r hr')
    have hnext := tier_lt_of_head?_runs ar scale hn
      (fun r' hr' ↦ (hrs r' (List.mem_cons_of_mem r hr')).1) hstop
    obtain ⟨hout, hleft⟩ := hpart r.operand r.rest _ hrest hnext
    have hsteps : steps ar scale ((r :: rs).flatMap Run.links) ++ stop =
        (r.op, eval ar r.operand scale) :: (steps ar scale r.rest ++
          (steps ar scale (rs.flatMap Run.links) ++ stop)) := by
      simp [steps, Run.links]
    rw [hsteps, fold, if_pos hop]
    dsimp only
    rw [hout, hleft]
    exact ih

/-- One rule of the grammar goes down by one tier. -/
theorem splits_phrase {n : Nat} {part : Phrase.Reader} (hn : n < 3)
    (hpart : Splits ar scale n part) :
    Splits ar scale (n + 1) (phrase ar scale (2 - n) part) := by
  intro head links stop hlinks hstop
  have htier : 3 - (n + 1) = 2 - n := by omega
  rw [htier] at hlinks hstop
  have hjoin := runs_join (2 - n) links
  obtain ⟨hfirst, hothers⟩ := tier_lt_of_mem_runs hlinks
  have hrs : ∀ r ∈ (runs (2 - n) links).2,
      r.op.tier = 2 - n ∧ ∀ l ∈ r.rest, 3 - n ≤ l.1.tier := by
    refine fun r hr ↦ ⟨((runs_spec (2 - n) links).2 r hr).1, fun l hl ↦ ?_⟩
    have := hothers r hr l hl
    omega
  have hnext := tier_lt_of_head?_runs ar scale hn (fun r hr ↦ (hrs r hr).1) hstop
  obtain ⟨hout, hleft⟩ := hpart head (runs (2 - n) links).1 _
    (fun l hl ↦ by
      have := hfirst l hl
      omega) hnext
  have hsteps : steps ar scale links ++ stop = steps ar scale (runs (2 - n) links).1 ++
      (steps ar scale ((runs (2 - n) links).2.flatMap Run.links) ++ stop) := by
    conv => lhs; rw [← hjoin]
    simp [steps]
  rw [hsteps, eval_bundle_succ]
  simp only [phrase]
  rw [hout, hleft]
  exact fold_runs ar scale hn hpart hstop _ _ hrs

theorem splits_sum : Splits ar scale 3 (sum ar scale) :=
  splits_phrase ar scale (by decide) <| splits_phrase ar scale (by decide) <|
    splits_phrase ar scale (by decide) (splits_operand ar scale)

/-! ## Whole expressions -/

/-- The value of a grouped chain is a matter of the values of its grouped operands. -/
theorem eval_group_chain (introduced : Bool) (head : Expr) (links : List Link) :
    eval ar (chain introduced head links).group scale =
      (sum ar scale (eval ar head.group scale) (steps ar scale (groupLinks links))).outcome := by
  have h := (splits_sum ar scale head.group (groupLinks links) []
    (fun l _ ↦ Nat.zero_le _) (by simp)).1
  rw [List.append_nil] at h
  rw [group, eval_bundle_introduced ar scale 3 introduced true, ← h]

/-- A chain whose operands agree with their groupings agrees with its own. -/
theorem worth_chain (introduced : Bool) {head : Expr} {links : List Link}
    (hhead : eval ar head.group scale = worth ar head scale)
    (hlinks : steps ar scale (groupLinks links) = worthLinks ar links scale) :
    eval ar (chain introduced head links).group scale =
      worth ar (chain introduced head links) scale := by
  rw [eval_group_chain, hhead, hlinks, worth]

mutual

theorem worth_eq_eval_group (ar : Arithmetic) :
    ∀ e : Expr, e.ByValue → ∀ scale, eval ar e.group scale = worth ar e scale
  | const _, _, _ => rfl
  | chain introduced head links, h, scale =>
    worth_chain ar scale introduced (worth_eq_eval_group ar head h.1 scale)
      (steps_groupLinks ar links h.2 scale)
  | call name p arguments, h, scale => by
    rw [group, eval, worth, h.1 _ _ (values_groupArguments ar arguments h.2)]

theorem steps_groupLinks (ar : Arithmetic) :
    ∀ links : List Link, LinksByValue links → ∀ scale,
      steps ar scale (groupLinks links) = worthLinks ar links scale
  | [], _, _ => rfl
  | (op, e) :: links, h, scale => by
    rw [groupLinks, worthLinks, ← worth_eq_eval_group ar e h.1 scale,
      ← steps_groupLinks ar links h.2 scale]
    rfl

theorem values_groupArguments (ar : Arithmetic) :
    ∀ es : List Expr, ArgumentsByValue es →
      (argumentsOf ar (groupArguments es)).map Argument.value =
        (worthArguments ar es).map Argument.value
  | [], _ => rfl
  | e :: es, h => by
    have hvalue : (fun scale ↦ eval ar e.group scale) = fun scale ↦ worth ar e scale :=
      funext (worth_eq_eval_group ar e h.1)
    simp only [groupArguments, argumentsOf, worthArguments, List.map_cons, hvalue,
      values_groupArguments ar es h.2]

end

/-- **Grouping is precedence.**  The value of the grouped expression, or the failure of its
evaluation, is that of the expression as it is written, read by the usual grammar.  The built-in
functions are among those for which this holds. -/
theorem eval_group (ar : Arithmetic) :
    (∀ d ∈ (Registry.builtins ar).declarations, d.procedure.ByValue) ∧
      ∀ e : Expr, e.ByValue → ∀ scale, eval ar e.group scale = worth ar e scale := by
  refine ⟨fun d hd ↦ ?_, worth_eq_eval_group ar⟩
  simp only [Registry.builtins, List.mem_cons, List.not_mem_nil, or_false] at hd
  obtain rfl | rfl | rfl := hd
  · exact Procedure.byValue_sine ar
  · exact Procedure.byValue_choose
  · exact Procedure.byValue_round ar

/-- `7 - 1 * IF(0, 5, 2 + 1) ^ 2 + 4` -/
def mixedTiers : Expr :=
  chain false (const (.ofInt 7))
    [(.minus, const (.ofInt 1)),
     (.times, call "if" .choose [const (.ofInt 0), const (.ofInt 5),
      chain false (const (.ofInt 2)) [(.plus, const (.ofInt 1))]]),
     (.power, const (.ofInt 2)), (.plus, const (.ofInt 4))]

theorem byValue_mixedTiers : mixedTiers.ByValue :=
  ⟨trivial, trivial, ⟨Procedure.byValue_choose, trivial, trivial, ⟨trivial, trivial, trivial⟩,
    trivial⟩, trivial, trivial, trivial⟩

/-- An operator of each tier, and a call between them whose argument is a chain. -/
theorem eval_group_mixedTiers : mixedTiers.ByValue ∧
    eval (Settings.standard.arithmetic .native) mixedTiers.group 2 =
      worth (Settings.standard.arithmetic .native) mixedTiers 2 :=
  ⟨byValue_mixedTiers, (eval_group _).2 mixedTiers byValue_mixedTiers 2⟩

end Expr

end Formula
