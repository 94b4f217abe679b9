import Formula.Proofs.Grammar.Counted
import Formula.Proofs.Registry.History
import Formula.Proofs.Session.Usable
import Formula.Proofs.Tokenization

/-!
# The spelling of names

The name of a function matters in three places: where the function is registered, where an
expression is cut into tokens, and where a function is looked up.  Each of them has its own idea of
letters and of letter case.  Here they are compared.

* `isName_iff` — a name can be registered exactly if it is a single name among tokens and has no
  point in it.
* `SameLetters` — two names differ in letter case alone.  Then both can be registered or none
  (`SameLetters.isName_eq`), and they have the same key (`SameLetters.foldCase_eq`).
* `Registry.after` — the registry after a registration, be it accepted or refused.
* `Registry.Callable` — every function can be called, whatever the letter case in which its name is
  spelled (`Registry.Callable.lookup?_eq`).  Registrations keep this, unless an arity is a
  floating-point number (`Registry.Callable.foldl_after`).
-/

set_option autoImplicit false

namespace Formula

/-! ## Names among tokens -/

theorem isName_iff_exists {s : String} :
    isName s ↔ ∃ c cs, s.toList = c :: cs ∧ c.isAlpha ∧ ∀ d ∈ cs, d.isAlphanum := by
  rw [isName]
  split <;> simp_all

/-- The characters of a name are those of words, without the point. -/
theorem isAlphanum_iff {c : Char} : c.isAlphanum ↔ Token.isWordChar false c ∧ c ≠ '.' := by
  by_cases hc : c = '.'
  · subst hc
    decide
  · simp [Char.isAlphanum, Token.isWordChar, hc, or_comm]

/-- **A name can be registered exactly if it is a single name among tokens**, and has no point in
it. -/
theorem isName_iff {s : String} :
    isName s ↔ Token.ofText false s = [⟨.name s.toList, 0⟩, ⟨.finish, s.length⟩] ∧
      '.' ∉ s.toList := by
  constructor
  · intro h
    obtain ⟨c, cs, hs, hc, hcs⟩ := isName_iff_exists.1 h
    have hall : ∀ d ∈ s.toList, d.isAlphanum := by
      rw [hs]
      simpa [Char.isAlphanum, hc] using hcs
    have hpoint : '.' ∉ s.toList := fun hmem ↦ (isAlphanum_iff.1 (hall _ hmem)).2 rfl
    have hword : ∀ d ∈ c :: cs, Token.isWordChar false d :=
      fun d hd ↦ (isAlphanum_iff.1 (hall d (hs ▸ hd))).1
    have htake : cs.takeWhile (Token.isWordChar false) = cs :=
      List.takeWhile_eq_self_iff.2 fun d hd ↦ hword d (List.mem_cons_of_mem c hd)
    have hdrop : cs.dropWhile (Token.isWordChar false) = [] :=
      List.dropWhile_eq_nil_iff.2 fun d hd ↦ hword d (List.mem_cons_of_mem c hd)
    have hstart := hword c List.mem_cons_self
    have hlength : s.length = cs.length + 1 := by rw [← String.length_toList, hs, List.length_cons]
    refine ⟨?_, hpoint⟩
    rw [Token.ofText, hlength, hs, Token.scan,
      if_neg (by simp [Grammar.isGap_of_isWordChar hstart]), if_pos hstart]
    simp [htake, hdrop, Token.scan, Token.ofWord, hc, Nat.add_comm]
  · rintro ⟨htokens, hpoint⟩
    have hstands := (Token.tokenizes_ofText false s).stands ⟨.name s.toList, 0⟩ (by simp [htokens])
    obtain ⟨c, hc, hletter⟩ := (hstands.name rfl).1 rfl
    obtain ⟨cs, hs⟩ : ∃ cs, s.toList = c :: cs := List.head?_eq_some_iff.1 hc
    refine isName_iff_exists.2 ⟨c, cs, hs, Token.isAlpha_iff.2 hletter, fun d hd ↦ ?_⟩
    have hmem : d ∈ s.toList := by simp [hs, hd]
    refine isAlphanum_iff.2 ⟨Token.isWordChar_iff.2 ((hstands.word rfl).mem d hmem), ?_⟩
    rintro rfl
    exact hpoint hmem

/-! ## Letter case -/

/-- A character is its own lower case, or a letter with another one for its lower case. -/
theorem toLower_cases (c : Char) : c.toLower = c ∨ c.isAlpha ∧ c.toLower.isAlpha := by
  simp only [Token.isAlpha_iff]
  unfold Char.toLower
  split
  · rename_i hupper
    refine .inr ⟨.inl hupper, .inr ?_⟩
    simp [Char.le_def, UInt32.le_iff_toNat_le, UInt32.toNat_add] at hupper ⊢
    omega
  · exact .inl rfl

theorem isAlpha_toLower (c : Char) : c.toLower.isAlpha = c.isAlpha := by
  obtain hsame | ⟨hletter, hlower⟩ := toLower_cases c
  · rw [hsame]
  · rw [hletter, hlower]

theorem isDigit_toLower (c : Char) : c.toLower.isDigit = c.isDigit := by
  have hnot : ∀ d : Char, d.isAlpha → d.isDigit = false := by
    intro d hd
    by_contra hdigit
    simp [Grammar.not_isAlpha_of_isDigit (Bool.eq_true_of_not_eq_false hdigit)] at hd
  obtain hsame | ⟨hletter, hlower⟩ := toLower_cases c
  · rw [hsame]
  · rw [hnot c hletter, hnot _ hlower]

/-- The two names differ in letter case alone. -/
def SameLetters (s t : String) : Prop := s.toList.map Char.toLower = t.toList.map Char.toLower

instance (s t : String) : Decidable (SameLetters s t) :=
  inferInstanceAs (Decidable (s.toList.map Char.toLower = t.toList.map Char.toLower))

theorem isName_map_toLower (s : String) :
    isName (String.ofList (s.toList.map Char.toLower)) = isName s := by
  have halphanum : Char.isAlphanum ∘ Char.toLower = Char.isAlphanum := by
    ext c
    show (c.toLower.isAlpha || c.toLower.isDigit) = (c.isAlpha || c.isDigit)
    rw [isAlpha_toLower, isDigit_toLower]
  rw [isName, isName, String.toList_ofList]
  cases s.toList with
  | nil => rfl
  | cons c cs =>
    show (c.toLower.isAlpha && (cs.map Char.toLower).all Char.isAlphanum) = _
    rw [isAlpha_toLower, List.all_map, halphanum]

/-- The key of a name is its lower case. -/
theorem foldCase_of_isName {s : String} (h : isName s) :
    Text.foldCase s = s.toList.map Char.toLower := by
  obtain ⟨c, cs, hs, hc, hcs⟩ := isName_iff_exists.1 h
  refine List.map_congr_left fun d hd ↦ if_neg ?_
  rintro rfl
  have hkelvin : Char.isAlpha '\u212a' = false ∧ Char.isAlphanum '\u212a' = false := by decide
  rw [hs] at hd
  obtain rfl | hd := List.mem_cons.1 hd
  · simp [hkelvin] at hc
  · simpa [hkelvin] using hcs _ hd

namespace SameLetters

variable {s t : String}

theorem isName_eq (h : SameLetters s t) : isName s = isName t := by
  rw [← isName_map_toLower s, h, isName_map_toLower]

theorem foldCase_eq (h : SameLetters s t) (ht : isName t) : Text.foldCase s = Text.foldCase t := by
  rw [foldCase_of_isName ht, ← h, foldCase_of_isName (h.isName_eq ▸ ht)]

end SameLetters

/-! ## Registrations -/

/-- A registration as it is asked for. -/
structure Registration where
  name : Value
  arity : Value
  procedure : Option Procedure

namespace Registry

/-- Under an arity of one, two or three, a procedure is accepted exactly if its name can be
spelled. -/
theorem isOk_register_text {r : Registry} {name : String} {arity : Value} {procedure : Procedure}
    (harity : (Arity.ofValue? arity).isSome) :
    (r.register (.text name) arity (some procedure)).isOk ↔ isName name := by
  have hdeclare : (r.register (.text name) arity (some procedure)).isOk =
      (declare (.text name) arity (some procedure)).toOption.isSome := by
    rw [register]
    cases declare (.text name) arity (some procedure) <;> rfl
  rw [hdeclare, isSome_declare_iff]
  simp [Value.isName, harity]

/-- The registry after a registration.  A refused one changes nothing. -/
def after (r : Registry) (g : Registration) : Registry :=
  match r.register g.name g.arity g.procedure with
  | .ok (r', _) => r'
  | .error _ => r

theorem after_cases (r : Registry) (g : Registration) :
    r.after g = r ∨
      ∃ d, declare g.name g.arity g.procedure = .ok d ∧ r.after g = r.insert d := by
  rw [after, register]
  cases declare g.name g.arity g.procedure with
  | error refusal => exact .inl rfl
  | ok d => exact .inr ⟨d, rfl, rfl⟩

/-- Every function can be called by its name. -/
structure Callable (r : Registry) : Prop where
  wellFormed : r.WellFormed
  distinct : r.Distinct
  counted : r.Counted

namespace Callable

theorem empty : Callable empty where
  wellFormed := wellFormed_empty
  distinct := distinct_empty
  counted := by simp [Counted, Registry.empty]

variable {r : Registry}

theorem insert (h : r.Callable) {name arity : Value} {procedure : Option Procedure}
    {d : Declaration} (hd : declare name arity procedure = .ok d)
    (harity : ∀ x, arity ≠ .float x) : (r.insert d).Callable where
  wellFormed := h.wellFormed.insert (declare_spec hd)
  distinct := (h.distinct.follows.insert d).distinct
  counted := by
    intro d' hd'
    obtain rfl | hd' := mem_place hd'
    · obtain ⟨-, -, hvalue, -⟩ := declare_eq_ok_iff.1 hd
      cases hcounted : d'.arity.isCounted with
      | true => rfl
      | false =>
        obtain ⟨x, hx⟩ := Arity.exists_float_of_ofValue? hvalue hcounted
        exact absurd hx (harity x)
    · exact h.counted d' hd'

/-- One registration. -/
theorem after (h : r.Callable) {g : Registration} (harity : ∀ x, g.arity ≠ .float x) :
    (r.after g).Callable := by
  obtain hsame | ⟨d, hd, hinsert⟩ := after_cases r g
  · rwa [hsame]
  · rw [hinsert]
    exact h.insert hd harity

/-- **Registrations keep all functions callable**, unless an arity is a floating-point number. -/
theorem foldl_after (h : r.Callable) {gs : List Registration}
    (harity : ∀ g ∈ gs, ∀ x, g.arity ≠ .float x) : (gs.foldl Registry.after r).Callable := by
  induction gs generalizing r with
  | nil => exact h
  | cons g gs ih =>
    obtain ⟨hg, hgs⟩ := List.forall_mem_cons.1 harity
    exact ih (h.after hg) hgs

/-- **A function is found under every spelling of its name.** -/
theorem lookup?_eq (h : r.Callable) {d : Declaration} (hd : d ∈ r.declarations) {name : String}
    (hname : SameLetters name d.name) : r.lookup? name = some d :=
  (lookup?_eq_some_iff h.distinct).2 ⟨hd, (hname.foldCase_eq (h.wellFormed d hd).1).symm⟩

end Callable

end Registry

end Formula
