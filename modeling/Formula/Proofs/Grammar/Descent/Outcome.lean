import Formula.Proofs.Grammar.Counted
import Formula.Proofs.Grammar.Descent.Agreement
import Formula.Proofs.Grammar.Inherited
import Formula.Proofs.Occurrence

/-!
# What comes of a text

Reading a text by recursive descent comes to no fault, since it does what the reader does, which has
none to offer.  There are three ways in which it ends: there was nothing to read, there is an
expression, or there is an error with one of the codes that are documented.

An expression that is read has the properties that the rest of the calculator relies on, at every
depth (`IsRead`).  They are read off its derivation.

`Descent.parse_outcome` is the main result.
-/

set_option autoImplicit false

namespace Formula

open Reader Formula.Expr

/-! ## Expressions that are read -/

/-- The expression itself is one that can be read: a constant is finite and within the bounds for
literals, a chain stands for parentheses, and a call is one of a registered function, with as many
arguments as its arity. -/
def IsRead (ctx : Context) : Expr → Prop
  | .const d =>
    ∃ s c e, d = .finite s c e ∧ (Decimal.magnitude c e).natAbs ≤ ctx.dialect.maxLiteralExponent ∧
      e.natAbs ≤ ctx.dialect.maxLiteralExponent
  | .chain introduced _ _ => introduced = false
  | .call name procedure arguments =>
    ∃ f ∈ ctx.functions.declarations,
      name = f.name ∧ procedure = f.procedure ∧ arguments.length = f.arity.count

variable {ctx : Context}

theorem Grammar.Literal.isRead {word : List Char} {d : Decimal} {negative : Bool}
    (h : Literal ctx.dialect word d) : IsRead ctx (signedNumber negative d) := by
  cases h with
  | intro _ _ _ _ _ hmagnitude hexponent _ =>
    cases negative <;> exact ⟨_, _, _, rfl, hmagnitude, hexponent⟩

/-- **What a text spells can be read at every depth.** -/
theorem Grammar.Spells.everywhere_isRead {n : Nat} {ls : List Lexeme} {e : Expr}
    (h : Spells ctx n ls e) : Everywhere (IsRead ctx) e := by
  have hone : (Decimal.magnitude 1 0).natAbs = 0 := by decide +kernel
  refine h.inherits
    { number := fun _ hliteral ↦ everywhere_const.2 hliteral.isRead
      minusOne := fun _ hbound ↦ everywhere_const.2 ⟨true, 1, 0, rfl, ?_, hbound⟩
      chain := fun hhead hlinks ↦ everywhere_chain.2 ⟨rfl, hhead, hlinks⟩
      call := fun _ hf _ hlength hes ↦ everywhere_call.2
        ⟨⟨_, List.mem_of_find?_eq_some hf, rfl, rfl, hlength⟩, hes⟩ }
  rw [hone]
  exact hbound

namespace Descent

/-- **A descent comes to no fault.**  Let all functions have arities that can be counted to, and are
not zero.  Then reading a text by recursive descent has the outcome of the parser.  It never asks
for a token after the end, builds no chain without a head, links no operand without an operator, and
builds no call with a number of arguments other than the arity of its function.  The text has no
tokens, or it has an expression, or it is rejected with one of the codes for errors; and in the
expression, which is a chain, all constants are finite and within the bounds for literals, no chain
was introduced, and each call has as many arguments as the arity of a registered function. -/
theorem parse_outcome (hcounted : ctx.functions.Counted)
    (hfunctions : ∀ d ∈ ctx.functions.declarations, 1 ≤ d.arity.count) (text : String) :
    parse ctx text = (Parser.parseRaw ctx text).value.mapError .unreadable ∧
      (∀ fault, parse ctx text ≠ .error (.fault fault)) ∧
      ((Parser.parseRaw ctx text).value = .ok none ∨
        (∃ head links, (Parser.parseRaw ctx text).value = .ok (some (.chain false head links)) ∧
          Everywhere (IsRead ctx) (.chain false head links)) ∨
        ∃ e, (Parser.parseRaw ctx text).value = .error (.rejected e) ∧
          e.code ∈ ParseError.codes) := by
  have hparse := parse_eq hfunctions text
  refine ⟨hparse, fun fault hfault ↦ ?_, ?_⟩
  · rw [hparse] at hfault
    cases hvalue : (Parser.parseRaw ctx text).value with
    | ok r => rw [hvalue] at hfault; cases hfault
    | error u => rw [hvalue] at hfault; cases hfault
  · cases hvalue : (Parser.parseRaw ctx text).value with
    | ok r =>
      cases r with
      | none => exact .inl rfl
      | some e =>
        obtain ⟨-, n, -, hspells⟩ := Grammar.spells_of_parseRaw hfunctions hvalue
        have hread := hspells.everywhere_isRead
        obtain ⟨head, links, -, rfl⟩ := hspells
        exact .inr (.inl ⟨head, links, rfl, hread⟩)
    | error u =>
      cases u with
      | rejected e => exact .inr (.inr ⟨e, rfl, e.code_mem_codes⟩)
      | uncounted f => exact absurd hvalue (Parser.parseRaw_ne_uncounted hcounted text f)
      | exhausted x => exact absurd hvalue (Parser.parseRaw_ne_exhausted ctx text x)

/-- A text with a call, and what is read from it; a text that ends inside of a call; and one with
nothing in it. -/
theorem parse_outcome_negatedCall :
    Grammar.standardContext.functions.Counted ∧
      (∀ d ∈ Grammar.standardContext.functions.declarations, 1 ≤ d.arity.count) ∧
      parse Grammar.standardContext "-If(1, (2), 3 + 4)" = .ok (some Grammar.negatedCall) ∧
      Everywhere (IsRead Grammar.standardContext) Grammar.negatedCall ∧
      ∀ fault, parse Grammar.standardContext "If(1, (2), 3 +" ≠ .error (.fault fault) := by
  have hcounted : Grammar.standardContext.functions.Counted :=
    Registry.counted_builtins _
  have hfunctions : ∀ d ∈ Grammar.standardContext.functions.declarations, 1 ≤ d.arity.count := by
    simp [Grammar.standardContext, Registry.builtins]
  obtain ⟨hparse, -, hvalue⟩ := parse_outcome hcounted hfunctions "-If(1, (2), 3 + 4)"
  rw [Grammar.parseRaw_negatedCall] at hparse hvalue
  obtain hvalue | ⟨head, links, hvalue, hread⟩ | ⟨e, hvalue, -⟩ := hvalue
  · cases hvalue
  · cases hvalue
    exact ⟨hcounted, hfunctions, hparse, hread, (parse_outcome hcounted hfunctions _).2.1⟩
  · cases hvalue

end Descent

end Formula
