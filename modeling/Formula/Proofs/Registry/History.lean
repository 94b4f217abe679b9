import Formula.Proofs.Registry
import Mathlib.Data.List.Induction
import Mathlib.Data.List.Nodup

/-!
# What a registry keeps of its history

A registration under a key that is taken replaces the declaration with that key, in its place.  So
of all declarations that were ever registered, a registry keeps for every key when it came first and
what came last (`latest`).

A list of declarations with different keys is known by the order of its keys and by its look-ups
(`eq_filterMap_find?`).  `Follows` states these two things for a registry and its history, and a
registration keeps both.

* `Follows.insert` — one registration.
* `Follows.declarations_eq` — the list itself.
* `lookup?_eq_some_iff`, `contains_iff` — look-ups in terms of the list.
-/

set_option autoImplicit false

namespace Formula.Registry

/-! ## Histories -/

/-- The keys of declarations, each of them in the place where it comes first. -/
def firstKeys (ds : List Declaration) : List (List Char) := (ds.map Declaration.key).eraseDups

/-- The last declaration with a given key. -/
def latest? (ds : List Declaration) (key : List Char) : Option Declaration :=
  ds.findRev? (·.key = key)

/-- Of the declarations with the same key the last one, in the place of the first one. -/
def latest (ds : List Declaration) : List Declaration := (firstKeys ds).filterMap (latest? ds)

theorem firstKeys_append (ds : List Declaration) (d : Declaration) :
    firstKeys (ds ++ [d]) =
      if d.key ∈ ds.map Declaration.key then firstKeys ds else firstKeys ds ++ [d.key] := by
  rw [firstKeys, firstKeys, List.map_append, List.eraseDups_append, List.map_singleton]
  generalize ds.map Declaration.key = keys
  by_cases h : d.key ∈ keys <;> simp [List.removeAll, List.eraseDups_cons, h]

theorem nodup_firstKeys (ds : List Declaration) : (firstKeys ds).Nodup := by
  induction ds using List.reverseRecOn with
  | nil => exact List.nodup_nil
  | append_singleton ds d ih =>
    rw [firstKeys_append]
    split
    · exact ih
    · rename_i h
      rw [← List.mem_eraseDups] at h
      rw [← List.concat_eq_append]
      exact ih.concat h

theorem firstKeys_of_nodup {ds : List Declaration} (h : (ds.map Declaration.key).Nodup) :
    firstKeys ds = ds.map Declaration.key := by
  induction ds using List.reverseRecOn with
  | nil => rfl
  | append_singleton ds d ih =>
    rw [List.map_append] at h
    obtain ⟨hnodup, -, hdisjoint⟩ := List.nodup_append.1 h
    have hnot : d.key ∉ ds.map Declaration.key := fun hd ↦
      hdisjoint d.key hd d.key List.mem_cons_self rfl
    rw [firstKeys_append, if_neg hnot, ih hnodup, List.map_append]
    rfl

theorem latest?_append (ds : List Declaration) (d : Declaration) (key : List Char) :
    latest? (ds ++ [d]) key = if d.key = key then some d else latest? ds key := by
  simp only [latest?, List.findRev?_eq_find?_reverse, List.reverse_append, List.reverse_singleton,
    List.singleton_append, List.find?_cons]
  by_cases h : d.key = key <;> simp [h]

/-! ## Different keys -/

/-- No two functions have the same key. -/
def Distinct (r : Registry) : Prop := (r.declarations.map Declaration.key).Nodup

theorem distinct_empty : Distinct empty := List.nodup_nil

theorem distinct_builtins (ar : Arithmetic) : Distinct (builtins ar) := by
  have hkeys : [Text.foldCase "sin", Text.foldCase "if", Text.foldCase "round"].Nodup := by decide
  exact hkeys

/-- Among declarations with different keys, the one that is found is the only one. -/
theorem find?_eq_some_iff {ds : List Declaration} (h : (ds.map Declaration.key).Nodup)
    {key : List Char} {d : Declaration} :
    ds.find? (·.key = key) = some d ↔ d ∈ ds ∧ d.key = key := by
  constructor
  · intro hfind
    exact ⟨List.mem_of_find?_eq_some hfind, by simpa using List.find?_some hfind⟩
  · rintro ⟨hd, rfl⟩
    have hsome : (ds.find? (·.key = d.key)).isSome := List.find?_isSome.2 ⟨d, hd, by simp⟩
    obtain ⟨d', hfind⟩ := Option.isSome_iff_exists.1 hsome
    have hkey : d'.key = d.key := by simpa using List.find?_some hfind
    rw [hfind, List.inj_on_of_nodup_map h (List.mem_of_find?_eq_some hfind) hd hkey]

/-- **A function is found exactly if it is listed under the key of the name.** -/
theorem lookup?_eq_some_iff {r : Registry} (h : r.Distinct) {name : String} {d : Declaration} :
    r.lookup? name = some d ↔ d ∈ r.declarations ∧ d.key = Text.foldCase name :=
  find?_eq_some_iff h

theorem contains_iff {r : Registry} {name : String} :
    r.contains (.text name) ↔ Text.foldCase name ∈ r.declarations.map Declaration.key := by
  rw [contains, lookup?, List.find?_isSome, List.mem_map]
  simp only [decide_eq_true_eq]

/-- Declarations with different keys are known by their keys and their look-ups. -/
theorem eq_filterMap_find? {ds : List Declaration} (h : (ds.map Declaration.key).Nodup) :
    ds = (ds.map Declaration.key).filterMap fun key ↦ ds.find? (·.key = key) := by
  induction ds with
  | nil => rfl
  | cons d ds ih =>
    obtain ⟨hnot, hnodup⟩ := List.nodup_cons.1 h
    have hrest : ∀ key ∈ ds.map Declaration.key,
        (d :: ds).find? (·.key = key) = ds.find? (·.key = key) := by
      intro key hkey
      have hne : d.key ≠ key := fun heq ↦ hnot (heq ▸ hkey)
      exact List.find?_cons_of_neg (by simp [hne])
    rw [List.map_cons, List.filterMap_cons, List.find?_cons_of_pos (by simp),
      List.filterMap_congr hrest, ← ih hnodup]

/-! ## Registries with a history -/

/-- The registry has the keys of its history, in the order in which they came first, and finds what
came last. -/
structure Follows (r : Registry) (ds : List Declaration) : Prop where
  keys_eq : r.declarations.map Declaration.key = firstKeys ds
  find?_eq : ∀ key, r.declarations.find? (·.key = key) = latest? ds key

/-- A registry with different keys can have come about by registering its functions in order. -/
theorem Distinct.follows {r : Registry} (h : r.Distinct) : r.Follows r.declarations where
  keys_eq := (firstKeys_of_nodup h).symm
  find?_eq key := by
    have hreverse : (r.declarations.reverse.map Declaration.key).Nodup := by
      rw [List.map_reverse, List.nodup_reverse]
      exact h
    rw [latest?, List.findRev?_eq_find?_reverse]
    ext d
    rw [find?_eq_some_iff h, find?_eq_some_iff hreverse, List.mem_reverse]

/-- **A registration adds to the history.** -/
theorem Follows.insert {r : Registry} {ds : List Declaration} (h : r.Follows ds) (d : Declaration) :
    (r.insert d).Follows (ds ++ [d]) where
  keys_eq := by
    have hmem : d.key ∈ r.declarations.map Declaration.key ↔ d.key ∈ ds.map Declaration.key := by
      rw [h.keys_eq, firstKeys, List.mem_eraseDups]
    rw [firstKeys_append, Registry.insert]
    split
    · rename_i hd
      rw [place_map_key_of_mem d _ (hmem.2 hd), h.keys_eq]
    · rename_i hd
      rw [place_of_not_mem d _ (fun hd' ↦ hd (hmem.1 hd')), List.map_append, h.keys_eq]
      rfl
  find?_eq key := by
    rw [latest?_append, ← h.find?_eq]
    exact find?_place d key r.declarations

theorem Follows.distinct {r : Registry} {ds : List Declaration} (h : r.Follows ds) :
    r.Distinct := by
  rw [Distinct, h.keys_eq]
  exact nodup_firstKeys ds

/-- **The functions of a registry are the latest ones of its history.** -/
theorem Follows.declarations_eq {r : Registry} {ds : List Declaration} (h : r.Follows ds) :
    r.declarations = latest ds := by
  rw [eq_filterMap_find? h.distinct, h.keys_eq, latest]
  exact List.filterMap_congr fun key _ ↦ h.find?_eq key

end Formula.Registry
