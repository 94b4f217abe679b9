import Formula.Function.Declaration
import Formula.Log.Record

/-!
# The registry of functions

A `Registry` holds the functions that expressions can call, in the order in which their names were
first registered.  Names that differ in letter case alone are one name: a second registration
replaces the first and keeps its place.

* `lookup?` finds a function by name.
* `insert` adds a declaration or replaces the one with the same key.
* `register` checks what it is given before it inserts: the name first, then the arity, then whether
  there is a procedure at all.  A refused registration is an error and nothing else, so the registry
  it was given is still the current one.
* `place_map_key_of_mem` and `place_of_not_mem` say what a new declaration does to the names: a
  known name keeps its place, and an unknown one goes to the end.
-/

set_option autoImplicit false

namespace Formula

/-- The functions that expressions can call. -/
structure Registry where
  declarations : List Declaration

namespace Registry

/-- The registry without functions. -/
def empty : Registry := ⟨[]⟩

/-- The function of a given name. -/
def lookup? (r : Registry) (name : String) : Option Declaration :=
  r.declarations.find? (·.key = Text.foldCase name)

/-- Is there a function of a given name?  A value that is no text is the name of none. -/
def contains (r : Registry) : Value → Bool
  | .text name => (r.lookup? name).isSome
  | _ => false

/-- The number of functions. -/
def size (r : Registry) : Nat := r.declarations.length

/-- A list of declarations with a new one, in the place of the declaration with the same key if
there is one. -/
def place (d : Declaration) : List Declaration → List Declaration
  | [] => [d]
  | d' :: rest => if d'.key = d.key then d :: rest else d' :: place d rest

/-- The registry with a new declaration. -/
def insert (r : Registry) (d : Declaration) : Registry := ⟨place d r.declarations⟩

/-- Why a registration is refused. -/
inductive Refusal
  /-- No expression can spell the name. -/
  | name (given : Value)
  /-- The arity is not one, two or three. -/
  | arity (given : Value) (function : String)
  /-- The arity is a list or a dictionary, and cannot even be looked up. -/
  | arityType (given : Value)
  /-- There is no procedure. -/
  | notCallable (function : String)

/-- The wording of a refusal. -/
def Refusal.message : Refusal → String
  | name given => s!"Invalid function name: {given.shown}"
  | arity given function => s!"Unsupported arity {given.shown} for {function}; expected 1, 2 or 3"
  | arityType given => s!"unhashable type: '{given.kind}'"
  | notCallable function => s!"Function {function} is not callable"

/-- The declaration that a registration asks for. -/
def declare (name arity : Value) (procedure : Option Procedure) : Except Refusal Declaration :=
  match name with
  | .text s =>
    if !isName s then .error (.name name)
    else match arity with
      | .list _ => .error (.arityType arity)
      | .dict _ => .error (.arityType arity)
      | _ => match Arity.ofValue? arity, procedure with
        | none, _ => .error (.arity arity s)
        | some _, none => .error (.notCallable s)
        | some a, some p => .ok ⟨s, a, p⟩
  | _ => .error (.name name)

/-- The registry with a function added, and what there is to report. -/
def register (r : Registry) (name arity : Value) (procedure : Option Procedure) :
    Except Refusal (Registry × List Log.Record) := do
  let d ← declare name arity procedure
  let replaced := (r.lookup? d.name).isSome
  return (r.insert d,
    if replaced then [.debug "functions" s!"replacing function {d.name}"] else [])

theorem place_map_key_of_mem (d : Declaration) :
    ∀ ds : List Declaration, d.key ∈ ds.map Declaration.key →
      (place d ds).map Declaration.key = ds.map Declaration.key
  | [], h => by simp at h
  | d' :: rest, h => by
    rw [place]
    split
    · rename_i hk
      simp [hk]
    · rename_i hk
      have : d.key ∈ rest.map Declaration.key := by
        rcases List.mem_cons.1 h with h | h
        · exact absurd h.symm hk
        · exact h
      simp [place_map_key_of_mem d rest this]

theorem place_of_not_mem (d : Declaration) :
    ∀ ds : List Declaration, d.key ∉ ds.map Declaration.key → place d ds = ds ++ [d]
  | [], _ => rfl
  | d' :: rest, h => by
    simp only [List.map_cons, List.mem_cons, not_or] at h
    rw [place, if_neg (Ne.symm h.1), place_of_not_mem d rest h.2]
    rfl

theorem find?_place (d : Declaration) (key : List Char) :
    ∀ ds : List Declaration,
      (place d ds).find? (·.key = key) =
        if d.key = key then some d else ds.find? (·.key = key)
  | [] => by by_cases h : d.key = key <;> simp [place, h]
  | d' :: rest => by
    have ih := find?_place d key rest
    rw [place]
    by_cases hd : d'.key = d.key
    · rw [if_pos hd]
      by_cases h : d.key = key
      · simp [h]
      · simp [h, hd]
    · rw [if_neg hd]
      by_cases h' : d'.key = key
      · simp [h', show d.key ≠ key from fun h ↦ hd (h'.trans h.symm)]
      · simp [h', ih]

end Registry

end Formula
