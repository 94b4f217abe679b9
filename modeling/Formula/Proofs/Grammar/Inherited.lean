import Formula.Proofs.Grammar.Derivation
import Formula.Proofs.Registry

/-!
# Properties of what is spelled

An expression that a text spells is put together from literals by chains, calls and signs.  A
property that literals have, and that chains and calls hand on from their parts (`Inherited`),
therefore holds of every expression that is spelled (`Spells.inherits`).

A sign before a group or a call is no rule of its own here: it is a chain with the factor `-1`.  The
factor stands in no text, so it has to be asked for separately that it has the property.  It only
occurs next to an operand, and where there is an operand there is a literal, so the bound for
exponents is one that admits literals (`Chain.bound_nonneg`).
-/

set_option autoImplicit false

namespace Formula.Grammar

open Reader

variable {ctx : Context}

/-! ## The bound for exponents -/

theorem Literal.bound_nonneg {dialect : Dialect} {word : List Char} {d : Decimal}
    (h : Literal dialect word d) : 0 ≤ dialect.maxLiteralExponent := by
  cases h with
  | intro _ _ _ _ _ _ hexponent => omega

mutual

theorem Operand.bound_nonneg : ∀ {n : Nat} {ls : List Lexeme} {e : Expr},
    Operand ctx n ls e → 0 ≤ ctx.dialect.maxLiteralExponent
  | _, _, _, .number _ h => h.bound_nonneg
  | _, _, _, .group _ h => h.bound_nonneg
  | _, _, _, .call _ _ _ _ h => h.bound_nonneg

/-- There is a number in every chain, so a bound for exponents that admits none is not negative. -/
theorem Chain.bound_nonneg : ∀ {n : Nat} {ls : List Lexeme} {head : Expr} {links : List Link},
    Chain ctx n ls head links → 0 ≤ ctx.dialect.maxLiteralExponent
  | _, _, _, _, .single h => h.bound_nonneg
  | _, _, _, _, .link _ h _ => h.bound_nonneg

theorem Arguments.bound_nonneg : ∀ {n k : Nat} {ls : List Lexeme} {es : List Expr},
    Arguments ctx n k ls es → 0 ≤ ctx.dialect.maxLiteralExponent
  | _, _, _, _, .first h => h.bound_nonneg
  | _, _, _, _, .next h _ => h.bound_nonneg

end

/-! ## Inheritance -/

theorem Signs.eq_false_of_strict {dialect : Dialect} {ss : List Lexeme} {negative : Bool}
    (h : Signs dialect ss negative) (hstrict : dialect.strict) : negative = false := by
  cases ss with
  | nil => exact h.odd
  | cons l ss =>
    have hl := (h.mem l List.mem_cons_self).1
    rw [hstrict] at hl
    cases hl

variable (ctx) in
/-- The property holds of an expression that is spelled if it holds of its parts. -/
structure Inherited (P : Expr → Prop) : Prop where
  number : ∀ {ss : List Lexeme} {negative : Bool} {word : List Char} {d : Decimal},
    Signs ctx.dialect ss negative → Literal ctx.dialect word d → P (signedNumber negative d)
  minusOne : ctx.dialect.strict = false → 0 ≤ ctx.dialect.maxLiteralExponent →
    P (.const (.finite true 1 0))
  chain : ∀ {head : Expr} {links : List Link},
    P head → (∀ l ∈ links, P l.2) → P (.chain false head links)
  call : ∀ {f : Declaration} {es : List Expr}, ctx.dialect.strict = false →
    ctx.functions.lookup? f.name = some f → f.arity.isCounted → es.length = f.arity.count →
      (∀ e ∈ es, P e) → P (.call f.name f.procedure es)

variable {P : Expr → Prop}

theorem Inherited.signed (hP : Inherited ctx P) {ss : List Lexeme} {negative : Bool} {e : Expr}
    (hsigns : Signs ctx.dialect ss negative) (hbound : 0 ≤ ctx.dialect.maxLiteralExponent)
    (h : P e) : P (signed negative e) := by
  cases negative with
  | false => exact h
  | true =>
    have hstrict : ctx.dialect.strict = false := by
      cases hs : ctx.dialect.strict with
      | false => rfl
      | true => exact absurd (hsigns.eq_false_of_strict hs) (by simp)
    exact hP.chain (hP.minusOne hstrict hbound) (by simpa using h)

theorem Inherited.argumentOf (hP : Inherited ctx P) {head : Expr} {links : List Link}
    (hhead : P head) (hlinks : ∀ l ∈ links, P l.2) : P (argumentOf head links) := by
  rw [Grammar.argumentOf]
  split
  · exact hhead
  · exact hP.chain hhead hlinks

mutual

theorem Operand.inherits (hP : Inherited ctx P) : ∀ {n : Nat} {ls : List Lexeme} {e : Expr},
    Operand ctx n ls e → P e
  | _, _, _, .number hsigns hliteral => hP.number hsigns hliteral
  | _, _, _, .group hsigns hchain =>
    hP.signed hsigns hchain.bound_nonneg
      (hP.chain (hchain.inherits hP).1 (hchain.inherits hP).2)
  | _, _, _, .call hsigns hstrict hf hcounted harguments =>
    hP.signed hsigns harguments.bound_nonneg <|
      hP.call hstrict (Registry.lookup?_name hf) hcounted harguments.length_eq
        (harguments.inherits hP)

theorem Chain.inherits (hP : Inherited ctx P) : ∀ {n : Nat} {ls : List Lexeme} {head : Expr}
    {links : List Link}, Chain ctx n ls head links → P head ∧ ∀ l ∈ links, P l.2
  | _, _, _, _, .single h => ⟨h.inherits hP, by simp⟩
  | _, _, _, _, .link op hchain hoperand => by
    obtain ⟨hhead, hlinks⟩ := hchain.inherits hP
    refine ⟨hhead, fun l hl ↦ ?_⟩
    rcases List.mem_append.1 hl with hl | hl
    · exact hlinks l hl
    · obtain rfl := List.mem_singleton.1 hl
      exact hoperand.inherits hP

theorem Arguments.inherits (hP : Inherited ctx P) : ∀ {n k : Nat} {ls : List Lexeme}
    {es : List Expr}, Arguments ctx n k ls es → ∀ e ∈ es, P e
  | _, _, _, _, .first h, e, he => by
    obtain rfl := List.mem_singleton.1 he
    exact hP.argumentOf (h.inherits hP).1 (h.inherits hP).2
  | _, _, _, _, .next harguments hchain, e, he => by
    rcases List.mem_append.1 he with he | he
    · exact harguments.inherits hP e he
    · obtain rfl := List.mem_singleton.1 he
      exact hP.argumentOf (hchain.inherits hP).1 (hchain.inherits hP).2

end

/-- **What a text spells has the properties that its parts hand on.** -/
theorem Spells.inherits (hP : Inherited ctx P) {n : Nat} {ls : List Lexeme} {e : Expr}
    (h : Spells ctx n ls e) : P e := by
  obtain ⟨head, links, hchain, rfl⟩ := h
  obtain ⟨hhead, hlinks⟩ := hchain.inherits hP
  exact hP.chain hhead hlinks

end Formula.Grammar
