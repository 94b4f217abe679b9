import Formula.Expr.Group
import Formula.Proofs.Grammar.Inherited

/-!
# Expressions that can be written

Not every expression is that of some text.  A constant may be out of bounds or a call may have too
many arguments, and then no text is read as it.  `Writable ctx e` is what makes the difference, and
it is a property that expressions have part by part.

* `Spells.writable` — what a text spells can be written.
* `Writable.group` — grouping by tiers only moves operands into chains of their own, so the grouped
  expression can be written as well.
-/

set_option autoImplicit false

namespace Formula.Grammar

open Reader Formula.Expr

/-- Up to its sign, the decimal is a number literal of the dialect.  The strict language has neither
signs nor points. -/
def Bounded (dialect : Dialect) : Decimal → Prop
  | .finite s c e =>
    (dialect.strict → s = false ∧ 0 ≤ e) ∧
      (Decimal.magnitude c e).natAbs ≤ dialect.maxLiteralExponent ∧
        e.natAbs ≤ dialect.maxLiteralExponent ∧ (Decimal.finite false c e).fits
  | _ => False

variable (ctx : Context)

/-- The constants are within bounds, and the calls are those of registered functions with as many
arguments as these have. -/
inductive Writable : Expr → Prop
  | const {d : Decimal} : Bounded ctx.dialect d → Writable (.const d)
  | chain {introduced : Bool} {head : Expr} {links : List Link} :
      Writable head → (∀ l ∈ links, Writable l.2) → Writable (.chain introduced head links)
  | call {f : Declaration} {es : List Expr} :
      ctx.dialect.strict = false → ctx.functions.lookup? f.name = some f → f.arity.isCounted →
      es.length = f.arity.count → (∀ e ∈ es, Writable e) → Writable (.call f.name f.procedure es)

variable {ctx}

/-! ## What is spelled can be written -/

/-- A literal that consists of digits has no exponent and no point. -/
theorem Literal.exponent_nonneg {dialect : Dialect} {word : List Char} {s : Bool} {c : Nat}
    {e : Int} (h : Literal dialect word (.finite s c e)) (hstrict : dialect.strict) : 0 ≤ e := by
  cases h with
  | intro hmantissa htail _ he hdigits _ _ _ =>
    have hdigits := hdigits hstrict
    cases hmantissa with
    | whole => rw [he, List.length_nil]; omega
    | both => exact absurd (hdigits '.' (by simp)) (by decide)
    | fraction => exact absurd (hdigits '.' (by simp)) (by decide)

theorem Literal.bounded {dialect : Dialect} {ss : List Lexeme} {word : List Char} {d : Decimal}
    {negative : Bool} (hsigns : Signs dialect ss negative) (h : Literal dialect word d) :
    Bounded dialect (if negative then d.negate else d) := by
  have hnonneg : ∀ {s : Bool} {c : Nat} {e : Int}, d = .finite s c e → dialect.strict → 0 ≤ e := by
    rintro s c e rfl
    exact h.exponent_nonneg
  cases h with
  | intro _ _ _ _ _ hmagnitude hexponent hfits =>
    have hstrict := fun hs ↦ And.intro (hsigns.eq_false_of_strict hs) (hnonneg rfl hs)
    cases negative with
    | false => exact ⟨fun hs ↦ ⟨rfl, (hstrict hs).2⟩, hmagnitude, hexponent, hfits⟩
    | true => exact ⟨fun hs ↦ absurd (hstrict hs).1 (by simp), hmagnitude, hexponent, hfits⟩

/-- The factor that stands for a minus sign is a literal like any other. -/
theorem bounded_minusOne {dialect : Dialect} (hstrict : dialect.strict = false)
    (hbound : 0 ≤ dialect.maxLiteralExponent) : Bounded dialect (.finite true 1 0) := by
  have hone : Decimal.magnitude 1 0 = 0 ∧ (Decimal.finite false 1 0).fits = true := by
    decide +kernel
  refine ⟨fun hs ↦ ?_, ?_, hbound, hone.2⟩
  · rw [hstrict] at hs
    cases hs
  · rw [hone.1]
    exact hbound

/-- **What a text spells can be written.** -/
theorem Spells.writable {n : Nat} {ls : List Lexeme} {e : Expr} (h : Spells ctx n ls e) :
    Writable ctx e :=
  h.inherits (P := Writable ctx)
    { number := fun hsigns hliteral ↦ .const (hliteral.bounded hsigns)
      minusOne := fun hstrict hbound ↦ .const (bounded_minusOne hstrict hbound)
      chain := .chain
      call := .call }

/-! ## Grouping -/

/-- **Grouping by tiers keeps what can be written.** -/
theorem Writable.group {e : Expr} (h : Writable ctx e) : Writable ctx e.group := by
  induction h with
  | const hd => exact .const hd
  | chain _ _ hhead hlinks =>
    refine bundle_of_chain (fun _ _ _ ↦ .chain) hhead fun l hl ↦ ?_
    rw [groupLinks_eq_map] at hl
    obtain ⟨l', hl', rfl⟩ := List.mem_map.1 hl
    exact hlinks l' hl'
  | call hstrict hf hcounted hlength _ hes =>
    rw [Expr.group, groupArguments_eq_map]
    refine .call hstrict hf hcounted (by rwa [List.length_map]) fun e he ↦ ?_
    obtain ⟨e', he', rfl⟩ := List.mem_map.1 he
    exact hes e' he'

end Formula.Grammar
