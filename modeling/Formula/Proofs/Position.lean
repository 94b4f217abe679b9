import Formula.Proofs.Numeric.Evaluation
import Formula.Proofs.Occurrence
import Formula.Proofs.Precedence
import Formula.Settings

/-!
# Expressions in their place

What an expression is worth in its place depends on the place in two ways: on the scale at which it
is evaluated there, and on whether the evaluation comes to it at all.  A `Position` is a way into an
expression, from the outside to the inside, with all that stands to the left and to the right of it.
It can be filled with any expression.

Grouping by tiers moves operands into new chains, so a position in the expression as it is written
is not one in the grouped expression.  But the value of a grouped chain is a matter of the values of
its operands (`eval_group_chain`), and that is enough: what stands in a position can be replaced by
anything that has the same value at the scale of the position (`Position.eval_group_fill`).

* `Position.scale` — the scale in a position.  It is the given one, and zero in the number of places
  of a rounding.
* `exists_fill_eq` — whatever occurs in an expression with the built-in functions stands in a
  position.
* `eval_group_choose` — a branch that is not selected has no part in the value of a choice.
* `eval_group_fill_choose` — the main result: nor has it in the value of what stands around it.
-/

set_option autoImplicit false

namespace Formula.Expr

/-! ## Positions -/

/-- A place directly inside of an expression with built-in functions: one of the operands of a chain
or one of the arguments of a call, with everything else that belongs to the chain or the call. -/
inductive Frame
  | head (introduced : Bool) (links : List Link)
  | operand (introduced : Bool) (head : Expr) (before : List Link) (op : Operator)
      (after : List Link)
  | angle (name : String)
  | condition (name : String) (whenNotZero whenZero : Expr)
  | whenNotZero (name : String) (condition whenZero : Expr)
  | whenZero (name : String) (condition whenNotZero : Expr)
  | rounded (name : String) (places : Expr)
  | places (name : String) (rounded : Expr)

/-- A way into an expression, the outermost place first. -/
abbrev Position := List Frame

variable (ar : Arithmetic)

/-- The expression around a place, with the given expression in the place. -/
def Frame.fill : Frame → Expr → Expr
  | head introduced links, e => chain introduced e links
  | operand introduced first before op after, e =>
    chain introduced first (before ++ (op, e) :: after)
  | angle name, e => call name (.sine ar) [e]
  | condition name x y, e => call name .choose [e, x, y]
  | whenNotZero name c y, e => call name .choose [c, e, y]
  | whenZero name c x, e => call name .choose [c, x, e]
  | rounded name n, e => call name (.round ar) [e, n]
  | places name x, e => call name (.round ar) [x, e]

/-- The scale in a place, given that of the expression around it. -/
def Frame.scale : Frame → Int → Int
  | places _ _, _ => 0
  | _, scale => scale

/-- The whole expression, with the given expression in the position. -/
def Position.fill : Position → Expr → Expr
  | [], e => e
  | f :: p, e => f.fill ar (fill p e)

/-- The scale in a position, given that of the whole expression. -/
def Position.scale : Position → Int → Int
  | [], scale => scale
  | f :: p, scale => Position.scale p (f.scale scale)

/-! ## Every occurrence has a position -/

/-- If the expression is a call, then it is one of a built-in function, with as many arguments as
this has. -/
def CallsBuiltin : Expr → Prop
  | call _ procedure arguments =>
    ∃ d ∈ (Registry.builtins ar).declarations,
      procedure = d.procedure ∧ arguments.length = d.arity.count
  | _ => True

variable {ar}

/-- A call of a built-in function is one of three. -/
theorem CallsBuiltin.cases {name : String} {procedure : Procedure} {arguments : List Expr}
    (h : CallsBuiltin ar (call name procedure arguments)) :
    (∃ x, procedure = .sine ar ∧ arguments = [x]) ∨
      (∃ c x y, procedure = .choose ∧ arguments = [c, x, y]) ∨
        ∃ x n, procedure = .round ar ∧ arguments = [x, n] := by
  obtain ⟨d, hd, rfl, hlength⟩ := h
  simp only [Registry.builtins, List.mem_cons, List.not_mem_nil, or_false] at hd
  obtain rfl | rfl | rfl := hd
  · obtain ⟨x, rfl⟩ := List.length_eq_one_iff.1 hlength
    exact .inl ⟨x, rfl, rfl⟩
  · obtain ⟨c, x, y, rfl⟩ := List.length_eq_three.1 hlength
    exact .inr (.inl ⟨c, x, y, rfl, rfl⟩)
  · obtain ⟨x, n, rfl⟩ := List.length_eq_two.1 hlength
    exact .inr (.inr ⟨x, n, rfl, rfl⟩)

/-- A part of an expression stands in a place directly inside of it. -/
theorem exists_frame_of_mem_parts {q e : Expr} (h : q ∈ e.parts) (he : CallsBuiltin ar e) :
    ∃ f : Frame, f.fill ar q = e := by
  cases e with
  | const d => cases h
  | chain introduced head links =>
    rcases List.mem_cons.1 h with rfl | h
    · exact ⟨.head introduced links, rfl⟩
    · obtain ⟨⟨op, e⟩, hl, rfl⟩ := List.mem_map.1 h
      obtain ⟨before, after, rfl⟩ := List.append_of_mem hl
      exact ⟨.operand introduced head before op after, rfl⟩
  | call name procedure arguments =>
    obtain ⟨x, rfl, rfl⟩ | ⟨c, x, y, rfl, rfl⟩ | ⟨x, n, rfl, rfl⟩ := he.cases
    · rw [List.mem_singleton.1 h]
      exact ⟨.angle name, rfl⟩
    · simp only [parts, List.mem_cons, List.not_mem_nil, or_false] at h
      obtain rfl | rfl | rfl := h
      · exact ⟨.condition name x y, rfl⟩
      · exact ⟨.whenNotZero name c y, rfl⟩
      · exact ⟨.whenZero name c x, rfl⟩
    · simp only [parts, List.mem_cons, List.not_mem_nil, or_false] at h
      obtain rfl | rfl := h
      · exact ⟨.rounded name n, rfl⟩
      · exact ⟨.places name x, rfl⟩

/-- **Whatever occurs in an expression with the built-in functions stands in a position.** -/
theorem exists_fill_eq {q e : Expr} (h : Occurs q e) (he : Everywhere (CallsBuiltin ar) e) :
    ∃ p : Position, p.fill ar q = e := by
  induction h with
  | self => exact ⟨[], rfl⟩
  | inside hmem _ ih =>
    obtain ⟨p, rfl⟩ := ih (he.part _ hmem)
    obtain ⟨f, rfl⟩ := exists_frame_of_mem_parts hmem he.self
    exact ⟨f :: p, rfl⟩

/-! ## Replacing what stands in a position -/

/-- What stands in a place can be replaced by anything that has the same value there. -/
theorem Frame.eval_group_fill (f : Frame) {e e' : Expr} {scale : Int}
    (h : eval ar e.group (f.scale scale) = eval ar e'.group (f.scale scale)) :
    eval ar (f.fill ar e).group scale = eval ar (f.fill ar e').group scale := by
  cases f with
  | head introduced links =>
    simp only [Frame.scale] at h
    rw [fill, fill, eval_group_chain, eval_group_chain, h]
  | operand introduced first before op after =>
    simp only [Frame.scale] at h
    have hsteps : steps ar scale (groupLinks (before ++ (op, e) :: after)) =
        steps ar scale (groupLinks (before ++ (op, e') :: after)) := by
      simp [steps, groupLinks_eq_map, h]
    rw [fill, fill, eval_group_chain, eval_group_chain, hsteps]
  | angle name =>
    simp only [Frame.scale] at h
    simp only [fill, group, groupArguments, eval_sine, h]
  | condition name x y | whenNotZero name c y | whenZero name c x =>
    simp only [Frame.scale] at h
    simp only [fill, group, groupArguments, eval_choose, h]
  | rounded name n | places name x =>
    simp only [Frame.scale] at h
    simp only [fill, group, groupArguments, eval_round, h]

/-- **What stands in a position can be replaced by anything that has the same value at the scale of
the position.** -/
theorem Position.eval_group_fill (p : Position) {e e' : Expr} {scale : Int}
    (h : eval ar e.group (p.scale scale) = eval ar e'.group (p.scale scale)) :
    eval ar (p.fill ar e).group scale = eval ar (p.fill ar e').group scale := by
  induction p generalizing scale with
  | nil => exact h
  | cons f p ih => exact f.eval_group_fill (ih h)

/-! ## Branches that are not selected -/

/-- The value of a choice is that of the branch that the condition selects, or the failure of the
condition. -/
theorem eval_group_choose (name : String) (c x y : Expr) (scale : Int) :
    eval ar (call name .choose [c, x, y]).group scale =
      (eval ar c.group scale).bind fun d ↦
        if d.isZero then eval ar y.group scale else eval ar x.group scale :=
  eval_choose name c.group x.group y.group scale

/-- **A branch that is not selected has no part in any value.**  Let a choice `IF(c, x, y)` stand
anywhere in an expression with the built-in functions, as a position says, and let the expression be
grouped by tiers and evaluated at any scale.  If the condition has a value other than zero at the
scale of the position, then the outcome is the same whatever stands in the place of `y`; if it is
zero, of either sign and with any exponent, whatever stands in the place of `x`; and if it fails,
whatever stands in both places.  Everything that occurs in such an expression has a position. -/
theorem eval_group_fill_choose (ar : Arithmetic) :
    (∀ q e : Expr, Occurs q e → Everywhere (CallsBuiltin ar) e → ∃ p : Position, p.fill ar q = e) ∧
      ∀ (p : Position) (name : String) (c x y : Expr) (scale : Int),
        (∀ d, eval ar c.group (p.scale scale) = .ok d → d.isZero = false → ∀ y',
          eval ar (p.fill ar (call name .choose [c, x, y'])).group scale =
            eval ar (p.fill ar (call name .choose [c, x, y])).group scale) ∧
        (∀ d, eval ar c.group (p.scale scale) = .ok d → d.isZero → ∀ x',
          eval ar (p.fill ar (call name .choose [c, x', y])).group scale =
            eval ar (p.fill ar (call name .choose [c, x, y])).group scale) ∧
        ∀ f, eval ar c.group (p.scale scale) = .error f → ∀ x' y',
          eval ar (p.fill ar (call name .choose [c, x', y'])).group scale =
            eval ar (p.fill ar (call name .choose [c, x, y])).group scale := by
  refine ⟨fun q e ↦ exists_fill_eq, fun p name c x y scale ↦ ⟨?_, ?_, ?_⟩⟩
  · intro d hd hzero y'
    refine p.eval_group_fill ?_
    simp only [eval_group_choose, hd, Except.bind, hzero, Bool.false_eq_true, if_false]
  · intro d hd hzero x'
    refine p.eval_group_fill ?_
    simp only [eval_group_choose, hd, Except.bind, hzero, if_true]
  · intro f hf x' y'
    refine p.eval_group_fill ?_
    simp only [eval_group_choose, hf, Except.bind]

/-- `1 / 3`, which is zero at the scale zero and at no other. -/
def third : Expr := chain false (const (.ofInt 1)) [(.divide, const (.ofInt 3))]

/-- `ROUND(2.5, _) * 2 ^ 3 + 4` -/
def placesInSum : Position :=
  [.head false
      [(.times, const (.ofInt 2)), (.power, const (.ofInt 3)), (.plus, const (.ofInt 4))],
    .places "round" (const (.finite false 25 (-1)))]

/-- `ROUND(2.5, IF(1 / 3, 1 / 0, 1)) * 2 ^ 3 + 4`, with the failing branch left open. -/
def roundedSum (branch : Expr) : Expr :=
  placesInSum.fill (Settings.standard.arithmetic .native)
    (call "if" .choose [third, branch, const (.ofInt 1)])

/-- In the number of places of a rounding the scale is zero, and there a third selects the last
branch of `IF(1 / 3, 1 / 0, 1)`. -/
theorem eval_group_fill_choose_third :
    (∃ p : Position, p.fill (Settings.standard.arithmetic .native) third = roundedSum third) ∧
      eval (Settings.standard.arithmetic .native) third.group (placesInSum.scale 10) =
        .ok (.finite false 0 0) ∧
      ∀ x : Expr, eval (Settings.standard.arithmetic .native) (roundedSum x).group 10 =
        eval (Settings.standard.arithmetic .native)
          (roundedSum (chain false (const (.ofInt 1)) [(.divide, const (.ofInt 0))])).group 10 := by
  obtain ⟨hposition, hvalue⟩ := eval_group_fill_choose (Settings.standard.arithmetic .native)
  have hthird : eval (Settings.standard.arithmetic .native) third.group (placesInSum.scale 10) =
      .ok (.finite false 0 0) := by
    decide +kernel
  refine ⟨hposition third (roundedSum third) ?_ ?_, hthird,
    (hvalue placesInSum "if" third _ _ 10).2.1 _ hthird rfl⟩
  · exact .inside List.mem_cons_self (.inside (List.mem_cons_of_mem _ List.mem_cons_self)
      (.inside List.mem_cons_self .self))
  · simp [roundedSum, placesInSum, third, Position.fill, Frame.fill, CallsBuiltin,
      Registry.builtins]

end Formula.Expr
