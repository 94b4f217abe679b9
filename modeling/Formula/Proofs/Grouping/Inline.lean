import Formula.Proofs.Grouping
import Formula.Proofs.Rendering.Constant
import Mathlib.Data.List.Basic

/-!
# Undoing the grouping

Grouping moves operands into chains of their own, and marks these chains.  So it can be undone by
looking at the marks alone: an introduced chain is written out in the chain that it lies in.  As the
head it is its own chain followed by the links around it, and as the operand to the right of an
operator it is this operator with its head, followed by its links.

* `inlined` — the expression with all introduced chains written out.
* `inlined_group_of_parts` — writing them out after grouping gives the expression back.  No operand
  is lost, doubled or moved.
* `withoutBraces_render_inlined` — the text is the same but for the braces, for every expression.
* `inlined_group` — both of these for an expression as it is written.
-/

set_option autoImplicit false

namespace Formula.Expr

/-! ## Writing out introduced chains -/

/-- An introduced chain is its head and its links, any other operand is just itself. -/
def spread : Expr → Expr × List (Operator × Expr)
  | chain true head links => (head, links)
  | e => (e, [])

/-- The links that stand for a link when its operand is written out. -/
def spreadLink (l : Link) : List Link := (l.1, (spread l.2).1) :: (spread l.2).2

/-- The introduced chains among the operands of a chain are written out in it. -/
def inlineParts : Expr → Expr
  | chain introduced head links =>
    chain introduced (spread head).1 ((spread head).2 ++ links.flatMap spreadLink)
  | e => e

mutual

/-- All introduced chains that lie in another chain are written out in it, the inner ones first. -/
def inlined : Expr → Expr
  | const d => const d
  | chain introduced head links =>
    inlineParts (chain introduced (inlined head) (inlinedLinks links))
  | call name procedure arguments => call name procedure (inlinedArguments arguments)

/-- `inlined` for the operands of links. -/
def inlinedLinks : List (Operator × Expr) → List (Operator × Expr)
  | [] => []
  | (op, e) :: rest => (op, inlined e) :: inlinedLinks rest

/-- `inlined` for arguments. -/
def inlinedArguments : List Expr → List Expr
  | [] => []
  | e :: rest => inlined e :: inlinedArguments rest

end

/-- The parts are written out first, and then what is left in the expression itself. -/
theorem inlined_eq (e : Expr) : inlined e = inlineParts (mapParts inlined e) := by
  have hlinks : ∀ links : List Link, inlinedLinks links = links.map fun l ↦ (l.1, inlined l.2) := by
    intro links
    induction links with
    | nil => rfl
    | cons l links ih => simp [inlinedLinks, ih]
  have harguments : ∀ es : List Expr, inlinedArguments es = es.map inlined := by
    intro es
    induction es with
    | nil => rfl
    | cons e es ih => simp [inlinedArguments, ih]
  cases e with
  | const d => rfl
  | chain introduced head links => rw [inlined, hlinks, mapParts]
  | call name procedure arguments => rw [inlined, harguments, mapParts, inlineParts.eq_def]

/-! ## After grouping -/

theorem spread_of_not_isIntroduced {e : Expr} (h : e.isIntroduced = false) :
    spread e = (e, []) := by
  cases e with
  | const d => rfl
  | call name procedure arguments => rfl
  | chain introduced head links =>
    cases introduced with
    | false => rfl
    | true => cases h

/-- What was packed comes out again. -/
theorem spread_pack {operand : Expr} (h : operand.isIntroduced = false) (links : List Link) :
    spread (pack operand links) = (operand, links) := by
  rw [pack]
  split
  · rename_i hempty
    rw [spread_of_not_isIntroduced h, List.isEmpty_iff.1 hempty]
  · rfl

/-- **A cut is undone by writing out the chains that it has made.** -/
theorem inlineParts_splitLowest {e : Expr} (h : ∀ p ∈ e.parts, p.isIntroduced = false) :
    inlineParts (splitLowest e) = e := by
  have hsingle : ∀ links : List Link, (∀ l ∈ links, l.2.isIntroduced = false) →
      links.flatMap spreadLink = links := by
    intro links hlinks
    induction links with
    | nil => rfl
    | cons l links ih =>
      rw [List.flatMap_cons, ih fun l hl ↦ hlinks l (List.mem_cons_of_mem _ hl), spreadLink,
        spread_of_not_isIntroduced (hlinks l List.mem_cons_self)]
      rfl
  cases e with
  | const d => rfl
  | call name procedure arguments => rfl
  | chain introduced head links =>
    have hhead : head.isIntroduced = false := h head List.mem_cons_self
    have hlinks : ∀ l ∈ links, l.2.isIntroduced = false := fun l hl ↦
      h l.2 (List.mem_cons_of_mem _ (List.mem_map_of_mem hl))
    obtain ⟨rfl, hsplit⟩ | ⟨tier, -, hsplit⟩ := splitLowest_chain introduced head links
    · rw [hsplit, inlineParts, spread_of_not_isIntroduced hhead]
      rfl
    · have hruns : ∀ r ∈ (runs tier links).2,
          spreadLink (r.op, pack r.operand r.rest) = r.links := by
        intro r hr
        rw [spreadLink, spread_pack (hlinks _ ((mem_of_mem_runs tier links).2 r hr).1)]
        rfl
      rw [hsplit, cut, inlineParts, spread_pack hhead]
      dsimp only
      rw [List.flatMap_map, List.flatMap_congr hruns, runs_join]

/-- **Writing out the introduced chains undoes the grouping.**  Only the operands and arguments have
to be as written: the expression itself may be a chain that was introduced. -/
theorem inlined_group_of_parts {e : Expr} (h : ∀ p ∈ e.parts, AsWritten p) :
    inlined (group e) = e := by
  induction e using splitLowest_induction with
  | step e ih =>
    have hparts : ∀ p ∈ (splitLowest e).parts, inlined (group p) = p := by
      intro p hp
      refine ih p hp fun q hq ↦ ?_
      rcases mem_parts_splitLowest hp with hp | hp
      · exact (h p hp).part q hq
      · exact h q (hp.parts_subset q hq)
    rw [group_eq, inlined_eq, mapParts_mapParts, mapParts_eq_self hparts]
    exact inlineParts_splitLowest fun p hp ↦ (h p hp).self

/-! ## The text without braces -/

/-- A text without the braces of introduced chains. -/
def withoutBraces (cs : List Char) : List Char := cs.filter fun c ↦ c ≠ '\x7b' ∧ c ≠ '\x7d'

theorem withoutBraces_append (cs ds : List Char) :
    withoutBraces (cs ++ ds) = withoutBraces cs ++ withoutBraces ds := List.filter_append ..

/-- The parentheses of a chain: an introduced one has none. -/
def parenthesis (introduced : Bool) (c : Char) : List Char := if introduced then [] else [c]

theorem withoutBraces_render_chain (introduced : Bool) (head : Expr) (links : List Link) :
    withoutBraces (render (chain introduced head links)) = parenthesis introduced '(' ++
      (withoutBraces (render head) ++
        (withoutBraces (renderLinks links) ++ parenthesis introduced ')')) := by
  cases introduced <;> simp [render, withoutBraces, parenthesis]

theorem withoutBraces_renderLinks (links : List Link) :
    withoutBraces (renderLinks links) =
      links.flatMap fun l ↦ ' ' :: l.1.symbol :: ' ' :: withoutBraces (render l.2) := by
  have hsymbol : ∀ op : Operator, op.symbol ≠ '\x7b' ∧ op.symbol ≠ '\x7d' := by
    intro op
    cases op <;> decide
  rw [renderLinks_eq_flatMap, withoutBraces, List.filter_flatMap]
  refine List.flatMap_congr fun l _ ↦ ?_
  simp [withoutBraces, hsymbol l.1]

theorem withoutBraces_renderArguments (e : Expr) (es : List Expr) :
    withoutBraces (renderArguments (e :: es)) =
      withoutBraces (render e) ++ es.flatMap fun e ↦ ',' :: ' ' :: withoutBraces (render e) := by
  rw [renderArguments_cons, withoutBraces_append]
  refine congrArg _ ?_
  rw [withoutBraces, List.filter_flatMap]
  refine List.flatMap_congr fun e _ ↦ ?_
  simp [withoutBraces]

theorem withoutBraces_render_call (name : String) (procedure : Procedure) (arguments : List Expr) :
    withoutBraces (render (call name procedure arguments)) =
      withoutBraces name.toList ++ '(' :: (withoutBraces (renderArguments arguments) ++ [')']) := by
  simp [render, withoutBraces]

/-- The text of an operand is the text of what it is when it is written out. -/
theorem withoutBraces_render_spread (e : Expr) :
    withoutBraces (render (spread e).1) ++ withoutBraces (renderLinks (spread e).2) =
      withoutBraces (render e) := by
  cases he : e.isIntroduced with
  | false =>
    rw [spread_of_not_isIntroduced he]
    exact List.append_nil _
  | true =>
    cases e with
    | const d => cases he
    | call name procedure arguments => cases he
    | chain introduced head links =>
      obtain rfl : introduced = true := he
      rw [withoutBraces_render_chain]
      simp [spread, parenthesis]

theorem withoutBraces_render_inlineParts (e : Expr) :
    withoutBraces (render (inlineParts e)) = withoutBraces (render e) := by
  cases e with
  | const d => rfl
  | call name procedure arguments => rfl
  | chain introduced head links =>
    have hlinks : withoutBraces (renderLinks (links.flatMap spreadLink)) =
        withoutBraces (renderLinks links) := by
      rw [withoutBraces_renderLinks, withoutBraces_renderLinks, List.flatMap_assoc]
      refine List.flatMap_congr fun l _ ↦ ?_
      have hspread := withoutBraces_render_spread l.2
      rw [withoutBraces_renderLinks] at hspread
      rw [spreadLink, List.flatMap_cons, ← hspread]
      rfl
    rw [inlineParts, withoutBraces_render_chain, withoutBraces_render_chain, renderLinks_append,
      withoutBraces_append, hlinks, List.append_assoc, ← List.append_assoc (withoutBraces _),
      withoutBraces_render_spread]

/-- The text of an expression is put together from the texts of its parts. -/
theorem withoutBraces_render_mapParts {f : Expr → Expr} {e : Expr}
    (h : ∀ p ∈ e.parts, withoutBraces (render (f p)) = withoutBraces (render p)) :
    withoutBraces (render (mapParts f e)) = withoutBraces (render e) := by
  cases e with
  | const d => rfl
  | chain introduced head links =>
    have hlinks : withoutBraces (renderLinks (links.map fun l ↦ (l.1, f l.2))) =
        withoutBraces (renderLinks links) := by
      rw [withoutBraces_renderLinks, withoutBraces_renderLinks, List.flatMap_map]
      refine List.flatMap_congr fun l hl ↦ ?_
      have hl := h l.2 (List.mem_cons_of_mem _ (List.mem_map_of_mem hl))
      dsimp only
      rw [hl]
    rw [mapParts, withoutBraces_render_chain, withoutBraces_render_chain, hlinks,
      h head List.mem_cons_self]
  | call name procedure arguments =>
    have harguments : withoutBraces (renderArguments (arguments.map f)) =
        withoutBraces (renderArguments arguments) := by
      cases arguments with
      | nil => rfl
      | cons e es =>
        rw [List.map_cons, withoutBraces_renderArguments, withoutBraces_renderArguments,
          List.flatMap_map, h e List.mem_cons_self]
        refine congrArg _ (List.flatMap_congr fun e' he' ↦ ?_)
        rw [h e' (List.mem_cons_of_mem _ he')]
    rw [mapParts, withoutBraces_render_call, withoutBraces_render_call, harguments]

/-- **Writing out introduced chains changes nothing in the text but the braces.** -/
theorem withoutBraces_render_inlined (e : Expr) :
    withoutBraces (render (inlined e)) = withoutBraces (render e) := by
  induction e using parts_induction with
  | step e ih =>
    rw [inlined_eq, withoutBraces_render_inlineParts]
    exact withoutBraces_render_mapParts ih

/-! ## Expressions as they are written -/

/-- If the expression is a call, its function has a name that can be registered. -/
def HasName : Expr → Prop
  | call name _ _ => isName name
  | _ => True

theorem withoutBraces_eq_self {cs : List Char} (h : ∀ c ∈ cs, c ≠ '\x7b' ∧ c ≠ '\x7d') :
    withoutBraces cs = cs := by
  rw [withoutBraces, List.filter_eq_self]
  exact fun c hc ↦ decide_eq_true (h c hc)

theorem withoutBraces_plain (d : Decimal) : withoutBraces d.plain = d.plain := by
  cases d with
  | infinity s => cases s <;> decide
  | nan s => cases s <;> decide
  | finite s c e =>
    have hdigits : withoutBraces (Decimal.plainDigits c e) = Decimal.plainDigits c e := by
      refine withoutBraces_eq_self fun x hx ↦ ?_
      rcases Grammar.mem_plainDigits x hx with hx | ⟨-, rfl⟩
      · constructor <;> rintro rfl <;> revert hx <;> decide
      · decide
    rw [Decimal.plain]
    split
    · have hminus : withoutBraces ['-'] = ['-'] := by decide
      rw [← List.singleton_append, withoutBraces_append, hdigits, hminus]
    · exact hdigits

theorem withoutBraces_name {name : String} (h : isName name) :
    withoutBraces name.toList = name.toList := by
  rw [isName] at h
  split at h
  · cases h
  · rename_i c cs hname
    rw [hname]
    rw [Bool.and_eq_true, List.all_eq_true] at h
    refine withoutBraces_eq_self fun x hx ↦ ?_
    rcases List.mem_cons.1 hx with rfl | hx
    · have halpha := h.1
      constructor <;> rintro rfl <;> revert halpha <;> decide
    · have halphanum := h.2 x hx
      constructor <;> rintro rfl <;> revert halphanum <;> decide

/-- The text of an expression as it is written has no braces. -/
theorem withoutBraces_render {e : Expr} (hwritten : AsWritten e) (hnames : Everywhere HasName e) :
    withoutBraces (render e) = render e := by
  induction e using parts_induction with
  | step e ih =>
    have hparts : ∀ p ∈ e.parts, withoutBraces (render p) = render p :=
      fun p hp ↦ ih p hp (hwritten.part p hp) (hnames.part p hp)
    cases e with
    | const d => exact withoutBraces_plain d
    | chain introduced head links =>
      obtain rfl : introduced = false := hwritten.self
      have hlinks : withoutBraces (renderLinks links) = renderLinks links := by
        rw [withoutBraces_renderLinks, renderLinks_eq_flatMap]
        refine List.flatMap_congr fun l hl ↦ ?_
        rw [hparts l.2 (List.mem_cons_of_mem _ (List.mem_map_of_mem hl))]
      rw [withoutBraces_render_chain, hlinks, hparts head List.mem_cons_self]
      rfl
    | call name procedure arguments =>
      have harguments : withoutBraces (renderArguments arguments) = renderArguments arguments := by
        cases arguments with
        | nil => rfl
        | cons e es =>
          rw [withoutBraces_renderArguments, renderArguments_cons, hparts e List.mem_cons_self]
          refine congrArg _ (List.flatMap_congr fun e' he' ↦ ?_)
          rw [hparts e' (List.mem_cons_of_mem _ he')]
      rw [withoutBraces_render_call, withoutBraces_name hnames.self, harguments, render]

/-- **Grouping loses, doubles and moves nothing.**  Writing out the introduced chains after grouping
gives back the expression as it is written, and without its braces the text of the grouped
expression is the text of the expression, if the functions that are called have names that can be
registered. -/
theorem inlined_group {e : Expr} (hwritten : AsWritten e) :
    inlined (group e) = e ∧
      (Everywhere HasName e → String.ofList (withoutBraces (group e).text.toList) = e.text) := by
  have hinlined : inlined (group e) = e := inlined_group_of_parts hwritten.part
  refine ⟨hinlined, fun hnames ↦ ?_⟩
  rw [text, String.toList_ofList, ← withoutBraces_render_inlined, hinlined,
    withoutBraces_render hwritten hnames, text]

/-- Runs at the beginning and at the end of a chain, two levels of them, and a call. -/
theorem inlined_group_conditionalProduct :
    AsWritten conditionalProduct ∧ inlined (group conditionalProduct) = conditionalProduct ∧
      Everywhere HasName conditionalProduct ∧
      String.ofList (withoutBraces (group conditionalProduct).text.toList) =
        "(if(1, (2 + 3 * 4 ^ 5), 6) * 7 - 8)" := by
  have hwritten : AsWritten conditionalProduct := by
    simp [AsWritten, conditionalProduct, isIntroduced]
  have hnames : Everywhere HasName conditionalProduct := by
    simp [conditionalProduct, HasName, show isName "if" by decide]
  have htext : conditionalProduct.text = "(if(1, (2 + 3 * 4 ^ 5), 6) * 7 - 8)" := by
    decide +kernel
  obtain ⟨hinlined, hbraces⟩ := inlined_group hwritten
  exact ⟨hwritten, hinlined, hnames, (hbraces hnames).trans htext⟩

end Formula.Expr
