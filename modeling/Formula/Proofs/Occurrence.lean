import Formula.Expr.Basic

/-!
# Expressions inside of expressions

A statement about *every* chain of an expression, at whatever depth and in whatever position, is
written with `Everywhere`: it holds of the expression and of all expressions that occur in it.  The
head of a chain, its other operands and the arguments of a call are all `parts` in the same way, so
what is said of parts need not be said once for each of these positions.

* `parts`, `mapParts` — the expressions directly inside of an expression, and a change to all of
  them.
* `Occurs`, `Everywhere` — expressions at any depth.  `everywhere_iff` goes down by one level.
* `parts_induction` — what holds of an expression whenever it holds of its parts holds of all.
-/

set_option autoImplicit false

namespace Formula.Expr

/-! ## Parts -/

/-- The operands of a chain, or the arguments of a call. -/
def parts : Expr → List Expr
  | const _ => []
  | chain _ head links => head :: links.map Prod.snd
  | call _ _ arguments => arguments

/-- The operators between the operands of a chain. -/
def operators : Expr → List Operator
  | chain _ _ links => links.map Prod.fst
  | _ => []

/-- Is the expression a chain that stands for no parentheses of the input? -/
def isIntroduced : Expr → Bool
  | chain introduced _ _ => introduced
  | _ => false

/-- The expression with all of its parts changed. -/
def mapParts (f : Expr → Expr) : Expr → Expr
  | const d => const d
  | chain introduced head links => chain introduced (f head) (links.map fun l ↦ (l.1, f l.2))
  | call name procedure arguments => call name procedure (arguments.map f)

@[simp]
theorem parts_mapParts (f : Expr → Expr) (e : Expr) : (mapParts f e).parts = e.parts.map f := by
  cases e <;> simp [mapParts, parts]

@[simp]
theorem operators_mapParts (f : Expr → Expr) (e : Expr) :
    (mapParts f e).operators = e.operators := by
  cases e <;> simp [mapParts, operators]

@[simp]
theorem isIntroduced_mapParts (f : Expr → Expr) (e : Expr) :
    (mapParts f e).isIntroduced = e.isIntroduced := by
  cases e <;> rfl

theorem mapParts_mapParts (f g : Expr → Expr) (e : Expr) :
    mapParts g (mapParts f e) = mapParts (fun p ↦ g (f p)) e := by
  cases e <;> simp [mapParts, Function.comp_def]

theorem mapParts_congr {f g : Expr → Expr} {e : Expr} (h : ∀ p ∈ e.parts, f p = g p) :
    mapParts f e = mapParts g e := by
  cases e with
  | const d => rfl
  | chain introduced head links =>
    have hlinks : links.map (fun l ↦ (l.1, f l.2)) = links.map fun l ↦ (l.1, g l.2) :=
      List.map_congr_left fun l hl ↦
        Prod.ext rfl (h l.2 (List.mem_cons_of_mem _ (List.mem_map_of_mem hl)))
    rw [mapParts, mapParts, h head List.mem_cons_self, hlinks]
  | call name procedure arguments =>
    have harguments : arguments.map f = arguments.map g := List.map_congr_left h
    rw [mapParts, mapParts, harguments]

/-- A change that changes no part changes nothing. -/
theorem mapParts_eq_self {f : Expr → Expr} {e : Expr} (h : ∀ p ∈ e.parts, f p = p) :
    mapParts f e = e := by
  rw [mapParts_congr h]
  cases e <;> simp [mapParts]

theorem sizeOf_lt_of_mem_parts {p e : Expr} (h : p ∈ e.parts) : sizeOf p < sizeOf e := by
  cases e with
  | const d => cases h
  | chain introduced head links =>
    rcases List.mem_cons.1 h with rfl | h
    · simp only [chain.sizeOf_spec]
      omega
    · obtain ⟨⟨op, e⟩, hl, rfl⟩ := List.mem_map.1 h
      have hlt := List.sizeOf_lt_of_mem hl
      simp only [chain.sizeOf_spec, Prod.mk.sizeOf_spec] at hlt ⊢
      omega
  | call name procedure arguments =>
    have hlt : sizeOf p < sizeOf arguments := List.sizeOf_lt_of_mem h
    simp only [call.sizeOf_spec]
    omega

/-- What holds of an expression whenever it holds of its parts holds of all expressions. -/
@[elab_as_elim]
theorem parts_induction {motive : Expr → Prop}
    (step : ∀ e : Expr, (∀ p ∈ e.parts, motive p) → motive e) (e : Expr) : motive e :=
  step e fun p hp ↦
    have : sizeOf p < sizeOf e := sizeOf_lt_of_mem_parts hp
    parts_induction step p
termination_by sizeOf e

/-! ## Occurrences -/

/-- The expression `p` is the other one, or occurs inside of it at any depth. -/
inductive Occurs (p : Expr) : Expr → Prop
  | self : Occurs p p
  | inside {q e : Expr} : q ∈ e.parts → Occurs p q → Occurs p e

theorem Occurs.trans {p q e : Expr} (h : Occurs p q) (h' : Occurs q e) : Occurs p e := by
  induction h' with
  | self => exact h
  | inside hmem _ ih => exact .inside hmem ih

/-- The property holds of the expression and of all expressions that occur in it. -/
def Everywhere (P : Expr → Prop) (e : Expr) : Prop := ∀ p, Occurs p e → P p

/-- A property that holds everywhere is a matter of the expression itself and of its parts. -/
theorem everywhere_iff {P : Expr → Prop} {e : Expr} :
    Everywhere P e ↔ P e ∧ ∀ p ∈ e.parts, Everywhere P p := by
  constructor
  · exact fun h ↦ ⟨h e .self, fun p hp q hq ↦ h q (.inside hp hq)⟩
  · rintro ⟨he, hparts⟩ p hp
    cases hp with
    | self => exact he
    | inside hq hp => exact hparts _ hq p hp

theorem Everywhere.self {P : Expr → Prop} {e : Expr} (h : Everywhere P e) : P e :=
  (everywhere_iff.1 h).1

theorem Everywhere.part {P : Expr → Prop} {e : Expr} (h : Everywhere P e) :
    ∀ p ∈ e.parts, Everywhere P p :=
  (everywhere_iff.1 h).2

variable {P : Expr → Prop}

@[simp]
theorem everywhere_const {d : Decimal} : Everywhere P (const d) ↔ P (const d) := by
  rw [everywhere_iff]
  exact and_iff_left fun p hp ↦ absurd hp List.not_mem_nil

@[simp]
theorem everywhere_chain {introduced : Bool} {head : Expr} {links : List Link} :
    Everywhere P (chain introduced head links) ↔
      P (chain introduced head links) ∧ Everywhere P head ∧ ∀ l ∈ links, Everywhere P l.2 := by
  rw [everywhere_iff, parts, List.forall_mem_cons, List.forall_mem_map]

@[simp]
theorem everywhere_call {name : String} {procedure : Procedure} {arguments : List Expr} :
    Everywhere P (call name procedure arguments) ↔
      P (call name procedure arguments) ∧ ∀ e ∈ arguments, Everywhere P e :=
  everywhere_iff

end Formula.Expr
