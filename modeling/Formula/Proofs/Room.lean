import Formula.Proofs.Calculator
import Formula.Proofs.Grammar.Continuation
import Formula.Proofs.Grammar.Counted

/-!
# Room for a text

What a calculator does with a text takes room on the host in three places: the text is read, its
expression is grouped by tiers, and the result is shown.

* `Calculator.CanRead` — the host has room for the first two.
* `Calculator.Fits` — the host has room for all of it.  Then the output is the one of the value
  (`Calculator.Fits.calculate_of_parseRaw`).
* `Calculator.Overflows` — what becomes of the other texts.  Reading reports a syntax error, showing
  the expression one of its own, and grouping leaves the text without an output.  There is nothing
  else (`Calculator.overflows_of_not_fits`).

Whether there is room can be told in advance for a host that counts calls.  A level of parentheses
is worth a limited number of them: it has one chain and perhaps a sign, and grouping makes at most
four chains of a chain (`Grammar.Spells.frames_group_le`).  So a host that allows enough calls for
the limit of the nesting has room for every text (`Calculator.fits_of_framed`), and under the
standard limits this is true of `Host.native` (`Calculator.fits_standardOn_native`).
-/

set_option autoImplicit false

namespace Formula

/-! ## Calls in progress -/

/-- The calls for a step from a chain to one of its operands. -/
def Steps.part (steps : Steps) : Nat := max steps.head steps.operand

/-- The calls for a chain as it is written, of which grouping makes up to four. -/
def Steps.chain (steps : Steps) : Nat := 4 * steps.part

/-- The calls for a level of parentheses: for its chain and for a sign, and to get to the chain. -/
def Steps.level (steps : Steps) : Nat := steps.argument + 2 * steps.chain

theorem Steps.level_mul_succ (steps : Steps) (n : Nat) :
    steps.level * (n + 1) = steps.argument + 2 * steps.chain + steps.level * n := by
  rw [Nat.mul_succ, Nat.add_comm]
  rfl

namespace Expr

variable {steps : Steps} {calls : Nat}

theorem framesOfLinks_le {links : List Link} (h : ∀ l ∈ links, frames steps l.2 ≤ calls) :
    framesOfLinks steps links ≤ steps.operand + calls := by
  induction links with
  | nil => exact Nat.zero_le _
  | cons l links ih =>
    obtain ⟨op, e⟩ := l
    rw [List.forall_mem_cons] at h
    exact Nat.max_le.2 ⟨Nat.add_le_add_left h.1 _, ih h.2⟩

theorem framesOfArguments_le {es : List Expr} (h : ∀ e ∈ es, frames steps e ≤ calls) :
    framesOfArguments steps es ≤ steps.argument + calls := by
  induction es with
  | nil => exact Nat.zero_le _
  | cons e es ih =>
    rw [List.forall_mem_cons] at h
    exact Nat.max_le.2 ⟨Nat.add_le_add_left h.1 _, ih h.2⟩

theorem frames_chain_le {introduced : Bool} {head : Expr} {links : List Link}
    (hhead : frames steps head ≤ calls) (hlinks : ∀ l ∈ links, frames steps l.2 ≤ calls) :
    frames steps (chain introduced head links) ≤ steps.part + calls := by
  have hlinks := framesOfLinks_le hlinks
  have hpart : steps.head ≤ steps.part ∧ steps.operand ≤ steps.part :=
    ⟨Nat.le_max_left _ _, Nat.le_max_right _ _⟩
  rw [frames]
  omega

/-- Each tier is worth a step. -/
theorem frames_bundle_le {n : Nat} {introduced : Bool} {head : Expr} {links : List Link}
    (hhead : frames steps head ≤ calls) (hlinks : ∀ l ∈ links, frames steps l.2 ≤ calls) :
    frames steps (bundle n introduced head links) ≤ (n + 1) * steps.part + calls := by
  induction n generalizing introduced head links with
  | zero =>
    have hchain : frames steps (chain introduced head links) ≤ _ := frames_chain_le hhead hlinks
    rw [bundle]
    omega
  | succ n ih =>
    have hmul : (n + 1 + 1) * steps.part = steps.part + (n + 1) * steps.part := by
      rw [Nat.succ_mul, Nat.add_comm]
    obtain ⟨hfirst, hothers⟩ := mem_of_mem_runs (2 - n) links
    rw [bundle, hmul, Nat.add_assoc]
    split
    · refine frames_chain_le ?_ fun l hl ↦ ?_
      · split
        · omega
        · exact ih hhead fun l hl ↦ hlinks l (hfirst l hl)
      · obtain ⟨r, hr, rfl⟩ := List.mem_map.1 hl
        have hoperand := hlinks _ (hothers r hr).1
        dsimp only
        split
        · dsimp only at hoperand
          omega
        · exact ih hoperand fun l hl ↦ hlinks l ((hothers r hr).2 l hl)
    · have hbundle : frames steps (bundle n introduced head links) ≤ _ := ih hhead hlinks
      omega

/-- A chain that is grouped, from its operands. -/
theorem frames_group_chain_le {introduced : Bool} {head : Expr} {links : List Link}
    (hhead : frames steps head.group ≤ calls)
    (hlinks : ∀ l ∈ links, frames steps l.2.group ≤ calls) :
    frames steps (chain introduced head links).group ≤ steps.chain + calls := by
  rw [group, groupLinks_eq_map]
  refine frames_bundle_le hhead fun l hl ↦ ?_
  obtain ⟨l', hl', rfl⟩ := List.mem_map.1 hl
  exact hlinks l' hl'

end Expr

namespace Grammar

open Formula.Expr

variable {ctx : Reader.Context} (steps : Steps)

theorem frames_group_signed_le {e : Expr} {calls : Nat} (h : frames steps e.group ≤ calls)
    (negative : Bool) : frames steps (signed negative e).group ≤ steps.chain + calls := by
  cases negative with
  | false => exact Nat.le_add_left_of_le h
  | true => exact frames_group_chain_le (Nat.zero_le _) (by simpa using h)

theorem frames_group_argumentOf_le {head : Expr} {links : List Link} {calls : Nat}
    (hhead : frames steps head.group ≤ calls)
    (hlinks : ∀ l ∈ links, frames steps l.2.group ≤ calls) :
    frames steps (argumentOf head links).group ≤ steps.chain + calls := by
  rw [argumentOf]
  split
  · exact Nat.le_add_left_of_le hhead
  · exact frames_group_chain_le hhead hlinks

mutual

-- The induction is on the derivation, and each rule that goes down a level pays for it.

theorem Operand.frames_group_le : ∀ {n : Nat} {ls : List Lexeme} {e : Expr},
    Operand ctx n ls e → frames steps e.group ≤ steps.level * n
  | _, _, _, .number _ _ => Nat.zero_le _
  | _, _, _, @Operand.group _ n _ _ negative _ _ _ hchain => by
    obtain ⟨hhead, hlinks⟩ := hchain.frames_group_le
    have hgroup : frames steps (chain false _ _).group ≤ _ := frames_group_chain_le hhead hlinks
    have hsigned := frames_group_signed_le steps hgroup negative
    rw [steps.level_mul_succ]
    omega
  | _, _, _, @Operand.call _ n _ _ negative _ f es _ _ _ _ harguments => by
    have hcall : frames steps (call f.name f.procedure es).group ≤
        steps.argument + (steps.chain + steps.level * n) := by
      rw [group, groupArguments_eq_map, frames]
      exact framesOfArguments_le (List.forall_mem_map.2 harguments.frames_group_le)
    have hsigned := frames_group_signed_le steps hcall negative
    rw [steps.level_mul_succ]
    omega

theorem Chain.frames_group_le : ∀ {n : Nat} {ls : List Lexeme} {head : Expr} {links : List Link},
    Chain ctx n ls head links → frames steps head.group ≤ steps.level * n ∧
      ∀ l ∈ links, frames steps l.2.group ≤ steps.level * n
  | _, _, _, _, .single hoperand => ⟨hoperand.frames_group_le, by simp⟩
  | _, _, _, _, .link op hchain hoperand => by
    obtain ⟨hhead, hlinks⟩ := hchain.frames_group_le
    refine ⟨hhead, fun l hl ↦ ?_⟩
    rcases List.mem_append.1 hl with hl | hl
    · exact hlinks l hl
    · obtain rfl := List.mem_singleton.1 hl
      exact hoperand.frames_group_le

theorem Arguments.frames_group_le : ∀ {n k : Nat} {ls : List Lexeme} {es : List Expr},
    Arguments ctx n k ls es →
      ∀ e ∈ es, frames steps e.group ≤ steps.chain + steps.level * n
  | _, _, _, _, .first hchain, e, he => by
    obtain ⟨hhead, hlinks⟩ := hchain.frames_group_le
    obtain rfl := List.mem_singleton.1 he
    exact frames_group_argumentOf_le steps hhead hlinks
  | _, _, _, _, .next harguments hchain, e, he => by
    rcases List.mem_append.1 he with he | he
    · exact harguments.frames_group_le e he
    · obtain ⟨hhead, hlinks⟩ := hchain.frames_group_le
      obtain rfl := List.mem_singleton.1 he
      exact frames_group_argumentOf_le steps hhead hlinks

end

/-- **A level of parentheses is worth a limited number of calls**, also where grouping introduces
chains of its own. -/
theorem Spells.frames_group_le {n : Nat} {ls : List Lexeme} {e : Expr} (h : Spells ctx n ls e) :
    frames steps e.group ≤ steps.chain + steps.level * n := by
  obtain ⟨head, links, hchain, rfl⟩ := h
  obtain ⟨hhead, hlinks⟩ := hchain.frames_group_le steps
  exact frames_group_chain_le hhead hlinks

/-- A text is only rejected because of the host if there are levels within the limit for the depth
that the host cannot follow. -/
theorem exists_not_canFollow {text : String}
    (h : (Parser.parseRaw ctx text).value = .error (.rejected .tooDeepToFollow)) :
    ∃ opened : List Bracket, (opened.length : Int) ≤ ctx.dialect.maxDepth ∧
      ctx.host.canFollow opened = false := by
  obtain hlong | ⟨-, h⟩ := Parser.parseRaw_rejected h
  · cases hlong
  rcases lt_or_ge ctx.dialect.maxDepth 0 with hdepth | hdepth
  · rw [Reader.value_readTokens_of_neg hdepth] at h
    cases h
  rw [Reader.value_readTokens hdepth] at h
  obtain ⟨closings, hrun⟩ | ⟨s, closings, -, hfinish⟩ := Reader.outcome_rejected h
  · exact (Reader.firm_run ctx _ _ closings _ hrun).2 rfl
  · obtain ⟨e, he, hpremature | ⟨f, hf⟩⟩ := Reader.exists_finish_eq hfinish
    · cases he
      cases hpremature.1
    · rw [hf] at he
      cases he

end Grammar

namespace Calculator

variable {c : Calculator} {text : String}

/-! ## Texts with room, and texts without -/

/-- **A text is left without an expression or an error exactly if there is no room to group.** -/
theorem parse_eq_exhausted_iff {text : Option String} {x : Exhaustion} :
    (c.parse text).value = .error (.exhausted x) ↔ ∃ e, (c.parseRaw text).value = .ok (some e) ∧
      c.host.groupingFault? e = some x := by
  rw [parse_value]
  rcases hraw : (c.parseRaw text).value with u | _ | e
  · refine iff_of_false (fun h ↦ ?_) (by simp)
    obtain rfl : u = .exhausted x := Except.error.inj h
    cases text with
    | none => cases hraw
    | some s =>
      rw [parseRaw] at hraw
      split at hraw
      · cases hraw
      · exact Parser.parseRaw_ne_exhausted c.context s x hraw
  · simp [Except.bind, Parser.grouped]
  · cases h : c.host.groupingFault? e <;> simp [Except.bind, Parser.grouped, h]

/-- The host has room to read the text and to group what is read. -/
structure CanRead (c : Calculator) (text : Option String) : Prop where
  reads : (c.parseRaw text).value ≠ .error (.rejected .tooDeepToFollow)
  groups : ∀ e, (c.parseRaw text).value = .ok (some e) → c.host.groupingFault? e = none

/-- The host has room for all that a calculator does with a text. -/
structure Fits (c : Calculator) (text : String) : Prop extends CanRead c (some text) where
  shows : ∀ e, (c.parse (some text)).value = .ok (some e) → c.host.renderingFault? e = none

/-- All that is left of grouping is the expression that it makes. -/
theorem CanRead.parse_value {text : Option String} (h : c.CanRead text) :
    (c.parse text).value = (c.parseRaw text).value.map (Option.map Expr.group) := by
  rw [Calculator.parse_value]
  have hgroups := h.groups
  rcases hraw : (c.parseRaw text).value with u | _ | e
  · rfl
  · rfl
  · rw [Except.bind, Parser.grouped_some (hgroups e hraw)]
    rfl

/-- Nothing else keeps a text from being read. -/
theorem CanRead.parse_ne_exhausted {text : Option String} (h : c.CanRead text) (x : Exhaustion) :
    (c.parse text).value ≠ .error (.exhausted x) := by
  intro hparse
  obtain ⟨e, he, hx⟩ := parse_eq_exhausted_iff.1 hparse
  rw [h.groups e he] at hx
  cases hx

/-- The text has an expression, and the host has no room to show it. -/
def CannotShow (c : Calculator) (text : Option String) (x : Exhaustion) : Prop :=
  ∃ e, (c.parse text).value = .ok (some e) ∧ c.host.renderingFault? e = some x

/-- A text with room that the grammar derives within the limits is read. -/
theorem Fits.parseRaw_of_spells {n : Nat} {e : Expr} (h : c.Fits text)
    (hlength : (text.length : Int) ≤ c.dialect.maxLength) (hdepth : (n : Int) ≤ c.dialect.maxDepth)
    (hspells : Grammar.Spells c.context n (Grammar.lexemes c.dialect.strict text) e) :
    (c.parseRaw (some text)).value = .ok (some e) := by
  have hparse : (c.parseRaw (some text)).value = (Parser.parseRaw c.context text).value := by
    rw [parseRaw, if_neg (by simp [isBlank_eq_false_of_spells hspells])]
  obtain hread | ⟨-, hread⟩ := hspells.parseRaw hdepth hlength
  · exact hparse.trans hread
  · exact absurd (hparse.trans hread) h.reads

/-- What is read is grouped, if there is room. -/
theorem Fits.parse_of_parseRaw {e : Expr} (h : c.Fits text)
    (hread : (c.parseRaw (some text)).value = .ok (some e)) :
    (c.parse (some text)).value = .ok (some e.group) :=
  parse_eq_some_iff.2 ⟨e, hread, h.groups e hread, rfl⟩

/-- **With room, the output is that of the value.** -/
theorem Fits.calculate_of_parseRaw {e : Expr} (h : c.Fits text)
    (hread : (c.parseRaw (some text)).value = .ok (some e)) :
    (c.calculate (some text)).value = outputOf (e.group.eval c.arithmetic c.scale) := by
  have hparse := h.parse_of_parseRaw hread
  rw [calculate_of_parse hparse, valueOf_eq_eval (h.shows _ hparse)]

theorem Fits.shown_eq {text : String} (h : c.Fits text) {e : Expr}
    (he : (c.parse (some text)).value = .ok (some e)) : c.shown e = .ok e.text := by
  rw [shown, h.shows e he]

/-! ## Hosts that count calls -/

/-- **A host that allows enough calls for the limit of the nesting has room for every text.** -/
theorem fits_of_framed (hfunctions : c.functions.WellFormed) {elementary : Elementary}
    {spare : Nat} {maxDigits : Option Nat} (hhost : c.host = .framed elementary spare maxDigits)
    (hspare : 28 * c.dialect.maxDepth + 10 ≤ spare) (text : String) : c.Fits text := by
  have hframes : ∀ (steps : Steps) {e : Expr}, (c.parseRaw (some text)).value = .ok (some e) →
      ∃ n : Nat, (n : Int) ≤ c.dialect.maxDepth ∧
        e.group.frames steps ≤ steps.chain + steps.level * n := by
    intro steps e he
    obtain ⟨-, n, hn, hspells⟩ :=
      Grammar.spells_of_parseRaw (fun d hd ↦ (hfunctions d hd).2.1) (parseRaw_of_calculator he).2
    exact ⟨n, hn, hspells.frames_group_le steps⟩
  refine ⟨⟨?_, ?_⟩, ?_⟩
  · intro h
    obtain ⟨opened, hopened, hfollow⟩ : ∃ opened : List Bracket,
        (opened.length : Int) ≤ c.dialect.maxDepth ∧ c.host.canFollow opened = false := by
      rw [parseRaw] at h
      split at h
      · cases h
      · exact Grammar.exists_not_canFollow h
    have hroom : c.host.Follows opened.length := by
      rw [hhost]
      exact Host.follows_framed (by omega)
    rw [hroom opened (Nat.le_refl _)] at hfollow
    cases hfollow
  · intro e he
    obtain ⟨n, hn, hle⟩ := hframes .grouping he
    have hle : e.group.frames .grouping ≤ 8 + 17 * n := hle
    rw [hhost]
    exact if_pos (show e.group.frames .grouping ≤ 1 + spare by omega)
  · intro e he
    obtain ⟨raw, hraw, -, rfl⟩ := parse_eq_some_iff.1 he
    obtain ⟨n, hn, hle⟩ := hframes .rendering hraw
    have hle : raw.group.frames .rendering ≤ 12 + 28 * n := hle
    rw [hhost]
    exact if_pos (show raw.group.frames .rendering ≤ 2 + spare by omega)

/-- Under the standard limits, this is true of a host that allows some thousand calls. -/
theorem fits_standardOn {elementary : Elementary} {spare : Nat} {maxDigits : Option Nat}
    (hspare : 2810 ≤ spare) (text : String) :
    (standardOn (.framed elementary spare maxDigits)).Fits text :=
  fits_of_framed (Registry.wellFormed_builtins _) rfl
    (show (28 * 100 + 10 : Int) ≤ spare by omega) text

/-- The host that the program runs on is such a host, whatever the functions are. -/
theorem fits_of_native (hfunctions : c.functions.WellFormed) (hhost : c.host = .native)
    (hdepth : c.dialect.maxDepth ≤ 100) (text : String) : c.Fits text :=
  fits_of_framed hfunctions hhost (by omega) text

theorem fits_standardOn_native (text : String) : (standardOn .native).Fits text :=
  fits_of_native (Registry.wellFormed_builtins _) rfl (Int.le_refl _) text

end Calculator

end Formula
