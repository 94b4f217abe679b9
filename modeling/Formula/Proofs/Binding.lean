import Formula.Proofs.Calculator
import Formula.Proofs.Registry

/-!
# Names are bound when a text is read

An expression has no names that wait to be looked up.  Each of its calls, however deep inside, holds
what it was bound to when the text was read (`Binding`): the registered spelling, the procedure and
the number of arguments.  The calls of an expression stand in the order of the names of its text,
and grouping the expression by tiers moves none of them.

So what an expression does with functions is known from the names in its text and the registry that
it was read with, and nothing that is registered later has a part in it.

* `Expr.calls` — the calls of an expression, at any depth.
* `calls_group` — grouping keeps them, in their order.
* `map_calls_of_chain` and its companions — the calls of what the grammar derives.
* `calls_of_parse` — the main result: the calls of a text that is read are the bindings of the names
  in it.
-/

set_option autoImplicit false

namespace Formula

/-! ## Calls -/

/-- What a name is bound to in an expression. -/
structure Binding where
  name : String
  procedure : Procedure
  count : Nat

/-- What a call of the function is bound to. -/
def Declaration.binding (d : Declaration) : Binding := ⟨d.name, d.procedure, d.arity.count⟩

namespace Expr

mutual

/-- The calls in an expression, at any depth, in the order in which they are written. -/
def calls : Expr → List Binding
  | const _ => []
  | chain _ head links => calls head ++ callsOfLinks links
  | call name procedure arguments =>
    ⟨name, procedure, arguments.length⟩ :: callsOfArguments arguments

/-- The calls in the links of a chain. -/
def callsOfLinks : List (Operator × Expr) → List Binding
  | [] => []
  | (_, e) :: rest => calls e ++ callsOfLinks rest

/-- The calls in the arguments of a call. -/
def callsOfArguments : List Expr → List Binding
  | [] => []
  | e :: rest => calls e ++ callsOfArguments rest

end

theorem callsOfLinks_eq_flatMap (links : List Link) :
    callsOfLinks links = links.flatMap fun l ↦ l.2.calls := by
  induction links with
  | nil => rfl
  | cons l links ih =>
    obtain ⟨op, e⟩ := l
    rw [callsOfLinks, ih, List.flatMap_cons]

theorem callsOfArguments_eq_flatMap (es : List Expr) : callsOfArguments es = es.flatMap calls := by
  induction es with
  | nil => rfl
  | cons e es ih => rw [callsOfArguments, ih, List.flatMap_cons]

theorem calls_chain (introduced : Bool) (head : Expr) (links : List Link) :
    (chain introduced head links).calls = head.calls ++ links.flatMap fun l ↦ l.2.calls := by
  rw [calls, callsOfLinks_eq_flatMap]

theorem calls_call (name : String) (procedure : Procedure) (arguments : List Expr) :
    (call name procedure arguments).calls =
      ⟨name, procedure, arguments.length⟩ :: arguments.flatMap calls := by
  rw [calls, callsOfArguments_eq_flatMap]

/-! ## Grouping -/

/-- A chain that is put in the place of its operands has the calls of its operands. -/
theorem calls_bundle (n : Nat) (introduced : Bool) (head : Expr) (links : List Link) :
    (bundle n introduced head links).calls = (chain introduced head links).calls := by
  induction n generalizing introduced head links with
  | zero => rfl
  | succ n ih =>
    have hinner (e : Expr) (ls : List Link) :
        (if ls.isEmpty then e else bundle n true e ls).calls =
          e.calls ++ ls.flatMap fun l ↦ l.2.calls := by
      split
      · rename_i hempty
        rw [List.isEmpty_iff.1 hempty, List.flatMap_nil, List.append_nil]
      · rw [ih, calls_chain]
    rw [bundle]
    split
    · have hjoin := runs_join (2 - n) links
      calc (chain introduced _ _).calls
        _ = (head.calls ++ (runs (2 - n) links).1.flatMap fun l ↦ l.2.calls) ++
              (runs (2 - n) links).2.flatMap fun r ↦ r.links.flatMap fun l ↦ l.2.calls := by
            rw [calls_chain, hinner, List.flatMap_map]
            simp only [hinner, Run.links, List.flatMap_cons]
        _ = head.calls ++ links.flatMap fun l ↦ l.2.calls := by
            rw [← List.flatMap_assoc, List.append_assoc, ← List.flatMap_append, hjoin]
        _ = (chain introduced head links).calls := (calls_chain introduced head links).symm
    · exact ih introduced head links

mutual

/-- **Grouping by tiers keeps the calls of an expression**, and their order. -/
theorem calls_group : ∀ e : Expr, e.group.calls = e.calls
  | const d => rfl
  | chain introduced head links => by
    rw [group, calls_bundle, calls, calls, calls_group head, callsOfLinks_groupLinks links]
  | call name procedure arguments => by
    rw [group, calls, calls, callsOfArguments_groupArguments arguments, groupArguments_eq_map,
      List.length_map]

theorem callsOfLinks_groupLinks : ∀ links : List Link,
    callsOfLinks (groupLinks links) = callsOfLinks links
  | [] => rfl
  | (op, e) :: rest => by
    rw [groupLinks, callsOfLinks, callsOfLinks, calls_group e, callsOfLinks_groupLinks rest]

theorem callsOfArguments_groupArguments : ∀ es : List Expr,
    callsOfArguments (groupArguments es) = callsOfArguments es
  | [] => rfl
  | e :: rest => by
    rw [groupArguments, callsOfArguments, callsOfArguments, calls_group e,
      callsOfArguments_groupArguments rest]

end

end Expr

/-! ## Names -/

/-- The name that a lexeme is, if it is one. -/
def Lexeme.name? : Lexeme → Option String
  | .name word => some (String.ofList word)
  | _ => none

/-- What a name is bound to when it is read, if there is a function of this name. -/
def Registry.binding? (r : Registry) (name : String) : Option Binding :=
  (r.lookup? name).map Declaration.binding

namespace Grammar

open Formula.Expr

/-- The names among lexemes, in order. -/
def names (ls : List Lexeme) : List String := ls.filterMap Lexeme.name?

@[simp]
theorem names_append (ls ms : List Lexeme) : names (ls ++ ms) = names ls ++ names ms :=
  List.filterMap_append

@[simp]
theorem names_cons_symbol (c : Char) (ls : List Lexeme) :
    names (.symbol c :: ls) = names ls := rfl

@[simp]
theorem names_cons_name (word : List Char) (ls : List Lexeme) :
    names (.name word :: ls) = String.ofList word :: names ls := rfl

@[simp]
theorem names_cons_number (word : List Char) (ls : List Lexeme) :
    names (.number word :: ls) = names ls := rfl

@[simp]
theorem names_nil : names [] = [] := rfl

theorem Signs.names_eq {dialect : Dialect} {ss : List Lexeme} {negative : Bool}
    (h : Signs dialect ss negative) : names ss = [] := by
  refine List.filterMap_eq_nil_iff.2 fun l hl ↦ ?_
  obtain ⟨-, rfl | rfl⟩ := h.mem l hl <;> rfl

@[simp]
theorem calls_signed (negative : Bool) (e : Expr) : (signed negative e).calls = e.calls := by
  cases negative <;> simp [signed, calls_chain, calls]

@[simp]
theorem calls_argumentOf (head : Expr) (links : List Link) :
    (argumentOf head links).calls = (chain false head links).calls := by
  rw [argumentOf]
  split
  · rename_i h
    rw [h, calls_chain, List.flatMap_nil, List.append_nil]
  · rfl

variable {ctx : Reader.Context}

mutual

/-- The calls of an operand are the bindings of its names. -/
theorem Operand.map_calls : ∀ {n : Nat} {ls : List Lexeme} {e : Expr}, Operand ctx n ls e →
    e.calls.map some = (names ls).map ctx.functions.binding?
  | _, _, _, .number hsigns _ => by
    simp [hsigns.names_eq, signedNumber, calls]
  | _, _, _, .group hsigns hchain => by
    simpa [hsigns.names_eq] using hchain.map_calls
  | _, _, _, @Operand.call _ _ _ _ _ name f es hsigns _ hf _ harguments => by
    have hbinding : ctx.functions.binding? (String.ofList name) =
        some ⟨f.name, f.procedure, es.length⟩ := by
      rw [Registry.binding?, hf, harguments.length_eq]
      rfl
    simpa [hsigns.names_eq, calls_call, hbinding] using harguments.map_calls

/-- The calls of a chain are the bindings of its names. -/
theorem Chain.map_calls : ∀ {n : Nat} {ls : List Lexeme} {head : Expr} {links : List Link},
    Chain ctx n ls head links →
      (chain false head links).calls.map some = (names ls).map ctx.functions.binding?
  | _, _, _, _, .single hoperand => by
    simpa [calls_chain] using hoperand.map_calls
  | _, _, _, _, .link op hchain hoperand => by
    have hcalls := hchain.map_calls
    rw [calls_chain] at hcalls ⊢
    rw [List.flatMap_append, ← List.append_assoc, List.map_append, hcalls]
    simp [hoperand.map_calls]

/-- The calls of arguments are the bindings of their names. -/
theorem Arguments.map_calls : ∀ {n k : Nat} {ls : List Lexeme} {es : List Expr},
    Arguments ctx n k ls es →
      (es.flatMap calls).map some = (names ls).map ctx.functions.binding?
  | _, _, _, _, .first hchain => by
    simpa using hchain.map_calls
  | _, _, _, _, .next harguments hchain => by
    simp [harguments.map_calls, hchain.map_calls]

end

end Grammar

/-! ## Texts -/

namespace Calculator

open Grammar

/-- What the names of a text are bound to when the calculator reads it. -/
def bindings (c : Calculator) (text : String) : List (Option Binding) :=
  (names (lexemes c.dialect.strict text)).map c.functions.binding?

/-- **The calls of an expression are the bindings of the names of its text**, at any depth and in
the order of the text. -/
theorem calls_of_parse {c : Calculator} (hfunctions : c.functions.WellFormed) {text : String}
    {e : Expr} (h : (c.parse (some text)).value = .ok (some e)) :
    e.calls.map some = c.bindings text := by
  obtain ⟨raw, hraw, -, rfl⟩ := parse_eq_some_iff.1 h
  obtain ⟨-, n, -, head, links, hchain, rfl⟩ :=
    spells_of_parseRaw (fun d hd ↦ (hfunctions d hd).2.1) (parseRaw_of_calculator hraw).2
  rw [Expr.calls_group]
  exact hchain.map_calls

/-- Every call in what is read is a call of a function of the calculator. -/
theorem exists_declaration_of_parse {c : Calculator} (hfunctions : c.functions.WellFormed)
    {text : Option String} {e : Expr} (h : (c.parse text).value = .ok (some e)) :
    ∀ b ∈ e.calls, ∃ d ∈ c.functions.declarations, d.binding = b := by
  intro b hb
  cases text with
  | none => cases h
  | some s =>
    have hmem := List.mem_map_of_mem (f := some) hb
    rw [calls_of_parse hfunctions h] at hmem
    obtain ⟨name, -, hname⟩ := List.mem_map.1 hmem
    obtain ⟨d, hd, rfl⟩ := Option.map_eq_some_iff.1 hname
    exact ⟨d, List.mem_of_find?_eq_some hd, rfl⟩

end Calculator

end Formula
