import Formula.Function.Builtin

/-!
# Registries that can be built

A registry is built by registering functions, and every registration is checked.  What the checks
are for is a property of the registry itself: all of its functions have names that an expression can
spell and one, two or three arguments (`Registry.WellFormed`).

* `wellFormed_empty`, `wellFormed_builtins` — the registries that everything starts with.
* `WellFormed.register` — a registration that is not refused keeps the property.
* `lookup?_name` — a function that is found by one spelling of its name is found by the registered
  one.
-/

set_option autoImplicit false

namespace Formula.Registry

/-- Every function has a name that an expression can spell and one, two or three arguments. -/
def WellFormed (r : Registry) : Prop :=
  ∀ d ∈ r.declarations, isName d.name ∧ 1 ≤ d.arity.count ∧ d.arity.count ≤ 3

theorem wellFormed_empty : WellFormed empty := by simp [WellFormed, empty]

theorem wellFormed_builtins (ar : Arithmetic) : WellFormed (builtins ar) := by
  have hnames : isName "sin" ∧ isName "if" ∧ isName "round" := by decide
  obtain ⟨hsin, hif, hround⟩ := hnames
  simp [WellFormed, builtins, hsin, hif, hround]

/-- **A registration is accepted exactly if** its name can be spelled, its arity is one, two or
three and there is a procedure. -/
theorem declare_eq_ok_iff {name arity : Value} {procedure : Option Procedure} {d : Declaration} :
    declare name arity procedure = .ok d ↔
      name = .text d.name ∧ isName d.name ∧ Arity.ofValue? arity = some d.arity ∧
        procedure = some d.procedure := by
  constructor
  · intro h
    unfold declare at h
    split at h
    · split at h
      · cases h
      · rename_i hname
        split at h
        · cases h
        · cases h
        · split at h
          · cases h
          · cases h
          · rename_i harity
            cases h
            exact ⟨rfl, by simpa using hname, harity, rfl⟩
    · cases h
  · rintro ⟨rfl, hname, harity, rfl⟩
    unfold declare
    dsimp only
    rw [if_neg (by simp [hname])]
    split
    · cases harity
    · cases harity
    · rw [harity]

theorem declare_spec {name arity : Value} {procedure : Option Procedure} {d : Declaration}
    (h : declare name arity procedure = .ok d) :
    isName d.name ∧ 1 ≤ d.arity.count ∧ d.arity.count ≤ 3 := by
  obtain ⟨-, hname, harity, -⟩ := declare_eq_ok_iff.1 h
  exact ⟨hname, Arity.count_of_ofValue? harity⟩

/-- An arity that is given as a whole number can be counted to. -/
theorem isCounted_of_declare {name : Value} {n : Int} {procedure : Option Procedure}
    {d : Declaration} (h : declare name (.integer n) procedure = .ok d) : d.arity.isCounted := by
  obtain ⟨-, -, harity, -⟩ := declare_eq_ok_iff.1 h
  rw [Arity.ofValue?] at harity
  split at harity
  · rw [← Option.some.inj harity]
    rfl
  · cases harity

theorem mem_place {d d' : Declaration} {ds : List Declaration} (h : d' ∈ place d ds) :
    d' = d ∨ d' ∈ ds := by
  induction ds with
  | nil => exact .inl (List.mem_singleton.1 h)
  | cons e ds ih =>
    rw [place] at h
    split at h
    · rcases List.mem_cons.1 h with h | h
      · exact .inl h
      · exact .inr (List.mem_cons_of_mem e h)
    · rcases List.mem_cons.1 h with rfl | h
      · exact .inr List.mem_cons_self
      · exact (ih h).imp id (List.mem_cons_of_mem e)

theorem WellFormed.insert {r : Registry} (hr : r.WellFormed) {d : Declaration}
    (hd : isName d.name ∧ 1 ≤ d.arity.count ∧ d.arity.count ≤ 3) : (r.insert d).WellFormed := by
  intro d' hd'
  rcases mem_place hd' with rfl | hd'
  · exact hd
  · exact hr d' hd'

/-- **Registering a function keeps the registry well-formed.** -/
theorem WellFormed.register {r r' : Registry} {name arity : Value} {procedure : Option Procedure}
    {records : List Log.Record} (hr : r.WellFormed)
    (h : r.register name arity procedure = .ok (r', records)) : r'.WellFormed := by
  rw [Registry.register] at h
  cases hd : declare name arity procedure with
  | error refusal => rw [hd] at h; cases h
  | ok d =>
    rw [hd] at h
    cases h
    exact hr.insert (declare_spec hd)

theorem WellFormed.of_lookup? {r : Registry} (hr : r.WellFormed) {name : String} {d : Declaration}
    (h : r.lookup? name = some d) :
    isName d.name ∧ 1 ≤ d.arity.count ∧ d.arity.count ≤ 3 :=
  hr d (List.mem_of_find?_eq_some h)

/-- A function is found by the name with which it was registered, if by any. -/
theorem lookup?_name {r : Registry} {name : String} {d : Declaration}
    (h : r.lookup? name = some d) : r.lookup? d.name = some d := by
  have hkey : d.key = Text.foldCase name := by simpa using List.find?_some h
  rwa [lookup?, ← hkey] at h

end Formula.Registry
