import Formula.Proofs.Digits
import Formula.Proofs.Grammar

/-!
# The lexemes of a text

A text is cut into tokens without anything being added or left out but the gaps: what a token
consists of stands in the text (`text_infix_of_mem_lexemes`), and every character that is not a gap
belongs to a token (`exists_mem_lexemes`).  So a text without tokens has nothing in it but gaps
(`lexemes_eq_nil_iff`).
-/

set_option autoImplicit false

namespace Formula

namespace Token

/-! ## Tokens -/

theorem text_ofWord (c : Char) (cs : List Char) : (ofWord c cs).text = c :: cs := by
  rw [ofWord]
  split <;> rfl

/-- The characters of a token stand in the text. -/
theorem text_infix_of_mem_scan (strict : Bool) (position : Nat) (cs : List Char) :
    ∀ t ∈ scan strict position cs, t.lexeme.text <:+: cs := by
  fun_induction scan strict position cs with
  | case1 p => simp [Lexeme.text]
  | case2 p c cs hgap ih => exact fun t ht ↦ (ih t ht).trans (List.suffix_cons c cs).isInfix
  | case3 p c cs hgap hword word ih =>
    intro t ht
    rcases List.mem_cons.1 ht with rfl | ht
    · rw [text_ofWord]
      exact ((List.prefix_cons_inj c).2 (List.takeWhile_prefix _)).isInfix
    · exact (ih t ht).trans ((List.dropWhile_suffix _).trans (List.suffix_cons c cs)).isInfix
  | case4 p c cs hgap hword ih =>
    intro t ht
    rcases List.mem_cons.1 ht with rfl | ht
    · exact List.infix_append [] [c] cs
    · exact (ih t ht).trans (List.suffix_cons c cs).isInfix

/-- The last token is the end. -/
theorem getLast?_scan (strict : Bool) (position : Nat) (cs : List Char) :
    (scan strict position cs).getLast? = some ⟨.finish, position + cs.length⟩ := by
  fun_induction scan strict position cs with
  | case1 position => rfl
  | case2 position c cs hgap ih =>
    rw [ih, List.length_cons]
    congr 2
    omega
  | case3 position c cs hgap hword word ih =>
    have hlength : word.length + (cs.dropWhile (isWordChar strict)).length = cs.length := by
      rw [← List.length_append, List.takeWhile_append_dropWhile]
    rw [List.getLast?_cons, ih, Option.getD_some, List.length_cons]
    congr 2
    omega
  | case4 position c cs hgap hword ih =>
    rw [List.getLast?_cons, ih, Option.getD_some, List.length_cons]
    congr 2
    omega

/-- There is always the token at the end. -/
theorem scan_ne_nil (strict : Bool) (position : Nat) (cs : List Char) :
    scan strict position cs ≠ [] := by
  intro hnil
  have hlast := getLast?_scan strict position cs
  rw [hnil] at hlast
  cases hlast

/-- No token before the end is the end. -/
theorem lexeme_ne_finish (strict : Bool) (position : Nat) (cs : List Char) :
    ∀ t ∈ (scan strict position cs).dropLast, t.lexeme ≠ .finish := by
  fun_induction scan strict position cs with
  | case1 position => simp
  | case2 position c cs hgap ih => exact ih
  | case3 position c cs hgap hword word ih =>
    intro t ht
    rw [List.dropLast_cons_of_ne_nil (scan_ne_nil _ _ _)] at ht
    rcases List.mem_cons.1 ht with rfl | ht
    · rw [ofWord]
      split <;> simp
    · exact ih t ht
  | case4 position c cs hgap hword ih =>
    intro t ht
    rw [List.dropLast_cons_of_ne_nil (scan_ne_nil _ _ _)] at ht
    rcases List.mem_cons.1 ht with rfl | ht
    · simp
    · exact ih t ht

/-- Every character but the gaps belongs to a token. -/
theorem exists_mem_scan (strict : Bool) (position : Nat) {cs : List Char} {c : Char} (hc : c ∈ cs)
    (hgap : isGap c = false) : ∃ t ∈ scan strict position cs, c ∈ t.lexeme.text := by
  fun_induction scan strict position cs with
  | case1 position => cases hc
  | case2 position d cs hd ih =>
    rcases List.mem_cons.1 hc with rfl | hc
    · rw [hgap] at hd
      cases hd
    · exact ih hc
  | case3 position d cs hd hword word ih =>
    rw [← List.takeWhile_append_dropWhile (p := isWordChar strict) (l := cs), ← List.cons_append,
      List.mem_append] at hc
    rcases hc with hc | hc
    · exact ⟨_, List.mem_cons_self, (text_ofWord d word).symm ▸ hc⟩
    · obtain ⟨t, ht, hct⟩ := ih hc
      exact ⟨t, List.mem_cons_of_mem _ ht, hct⟩
  | case4 position d cs hd hword ih =>
    rcases List.mem_cons.1 hc with rfl | hc
    · exact ⟨_, List.mem_cons_self, List.mem_singleton_self c⟩
    · obtain ⟨t, ht, hct⟩ := ih hc
      exact ⟨t, List.mem_cons_of_mem _ ht, hct⟩

theorem scan_eq_singleton (strict : Bool) (position : Nat) {cs : List Char}
    (h : ∀ c ∈ cs, isGap c) : scan strict position cs = [⟨.finish, position + cs.length⟩] := by
  induction cs generalizing position with
  | nil => rw [scan]; rfl
  | cons c cs ih =>
    rw [scan, if_pos (h c List.mem_cons_self), ih _ fun d hd ↦ h d (List.mem_cons_of_mem c hd),
      List.length_cons]
    congr 2
    omega

end Token

namespace Grammar

variable {strict : Bool}

/-! ## Characters of words -/

theorem toNat_of_isWordChar {c : Char} (h : Token.isWordChar strict c) : 46 ≤ c.toNat := by
  simp only [Token.isWordChar, Bool.or_eq_true, Bool.and_eq_true, decide_eq_true_eq] at h
  obtain h | ⟨-, h | rfl⟩ := h
  · have hdigit := (Digits.toNat_of_isDigit h).1
    omega
  · have hletter := Digits.le_toNat_of_isAlpha h
    omega
  · decide

theorem isGap_of_isWordChar {c : Char} (h : Token.isWordChar strict c) : Token.isGap c = false := by
  have := toNat_of_isWordChar h
  simp only [Token.isGap, decide_eq_false_iff_not]
  omega

/-! ## Lexemes -/

theorem text_infix_of_mem_lexemes {strict : Bool} {text : String} {l : Lexeme}
    (h : l ∈ lexemes strict text) : l.text <:+: text.toList := by
  obtain ⟨t, ht, rfl⟩ := List.mem_map.1 h
  exact Token.text_infix_of_mem_scan strict 0 text.toList t (List.dropLast_subset _ ht)

/-- The tokens before the end are all tokens but the end. -/
theorem scan_eq_append (strict : Bool) (text : String) :
    Token.ofText strict text =
      (Token.ofText strict text).dropLast ++ [⟨.finish, text.toList.length⟩] := by
  obtain ⟨front, hfront⟩ := List.getLast?_eq_some_iff.1 (Token.getLast?_scan strict 0 text.toList)
  rw [Nat.zero_add] at hfront
  rw [Token.ofText, hfront, List.dropLast_concat]

/-- Every character but the gaps belongs to a lexeme. -/
theorem exists_mem_lexemes (strict : Bool) {text : String} {c : Char} (hc : c ∈ text.toList)
    (hgap : Token.isGap c = false) :
    ∃ t ∈ (Token.ofText strict text).dropLast, c ∈ t.lexeme.text := by
  obtain ⟨t, ht, hct⟩ := Token.exists_mem_scan strict 0 hc hgap
  change t ∈ Token.ofText strict text at ht
  rw [scan_eq_append, List.mem_append, List.mem_singleton] at ht
  rcases ht with ht | rfl
  · exact ⟨t, ht, hct⟩
  · cases hct

/-- A text without tokens has nothing in it but gaps. -/
theorem lexemes_eq_nil_iff {text : String} :
    lexemes strict text = [] ↔ ∀ c ∈ text.toList, Token.isGap c := by
  constructor
  · intro hnil c hc
    by_contra hgap
    obtain ⟨t, ht, -⟩ := exists_mem_lexemes strict hc (by simpa using hgap)
    rw [List.map_eq_nil_iff.1 hnil] at ht
    cases ht
  · intro h
    rw [lexemes, Token.ofText, Token.scan_eq_singleton strict 0 h]
    rfl

end Grammar

end Formula
