import Formula.Proofs.Grammar.Lexemes
import Formula.Proofs.Rendering
import Mathlib.Data.List.TakeDrop

/-!
# Fragments of a text

A text that is put together from parts is read part by part, as long as no word runs into the next
one.  `Fragment strict cs ls k` says all that has to be known of a part `cs`: it is read as the
lexemes `ls`, whatever follows it that does not begin with a character of a word, and its
parentheses close each other and are nested `k` deep.

Positions play no role here, so the fragments are about `lex`, which leaves them out.

* `Fragment.word` — a word is a fragment.
* `Fragment.cons_gap`, `Fragment.cons_symbol`, `Fragment.append`, `Fragment.parens` — larger
  fragments from smaller ones.
* `Fragment.lexemes_eq`, `Fragment.nesting_eq` — what they say of a whole text.
-/

set_option autoImplicit false

namespace Formula.Grammar

variable {strict : Bool}

/-! ## Lexemes without positions -/

/-- The lexemes of a list of characters, with the end. -/
def lex (strict : Bool) (cs : List Char) : List Lexeme :=
  (Token.scan strict 0 cs).map Token.lexeme

theorem map_lexeme_scan (strict : Bool) (position : Nat) (cs : List Char) :
    (Token.scan strict position cs).map Token.lexeme = lex strict cs := by
  have hshift : ∀ p q : Nat, (Token.scan strict p cs).map Token.lexeme =
      (Token.scan strict q cs).map Token.lexeme := by
    intro p
    fun_induction Token.scan strict p cs with
    | case1 p => intro q; rw [Token.scan]; rfl
    | case2 p c cs hgap ih => intro q; rw [Token.scan, if_pos hgap]; exact ih (q + 1)
    | case3 p c cs hgap hword word ih =>
      intro q
      rw [Token.scan, if_neg hgap, if_pos hword, List.map_cons, List.map_cons]
      exact congrArg _ (ih _)
    | case4 p c cs hgap hword ih =>
      intro q
      rw [Token.scan, if_neg hgap, if_neg hword, List.map_cons, List.map_cons]
      exact congrArg _ (ih _)
  exact hshift position 0

theorem lexemes_eq_dropLast_lex (strict : Bool) (text : String) :
    lexemes strict text = (lex strict text.toList).dropLast := List.map_dropLast

theorem lex_nil : lex strict [] = [.finish] := by
  rw [lex, Token.scan]
  rfl

theorem lex_gap {c : Char} (h : Token.isGap c) (cs : List Char) :
    lex strict (c :: cs) = lex strict cs := by
  rw [lex, Token.scan, if_pos h, map_lexeme_scan]

theorem lex_symbol {c : Char} (hgap : Token.isGap c = false)
    (hword : Token.isWordChar strict c = false) (cs : List Char) :
    lex strict (c :: cs) = .symbol c :: lex strict cs := by
  have hg : ¬ Token.isGap c = true := by simp [hgap]
  have hw : ¬ Token.isWordChar strict c = true := by simp [hword]
  rw [lex, Token.scan, if_neg hg, if_neg hw, List.map_cons, map_lexeme_scan]

/-- A word is read as far as it goes. -/
theorem lex_word {c : Char} {cs rest : List Char} (h : ∀ d ∈ c :: cs, Token.isWordChar strict d)
    (hrest : ∀ d ∈ rest.head?, Token.isWordChar strict d = false) :
    lex strict (c :: cs ++ rest) = Token.ofWord c cs :: lex strict rest := by
  have hc := h c List.mem_cons_self
  have hcs : ∀ d ∈ cs, Token.isWordChar strict d := fun d hd ↦ h d (List.mem_cons_of_mem c hd)
  have hg : ¬ Token.isGap c = true := by simp [isGap_of_isWordChar hc]
  have htake : (cs ++ rest).takeWhile (Token.isWordChar strict) = cs := by
    rw [List.takeWhile_append_of_pos hcs]
    cases rest with
    | nil => simp
    | cons d rest => simp [hrest d rfl]
  have hdrop : (cs ++ rest).dropWhile (Token.isWordChar strict) = rest := by
    rw [List.dropWhile_append_of_pos hcs]
    cases rest with
    | nil => rfl
    | cons d rest => simp [hrest d rfl]
  rw [lex, List.cons_append, Token.scan, if_neg hg, if_pos hc]
  dsimp only
  rw [htake, hdrop, List.map_cons, map_lexeme_scan]

/-! ## Fragments -/

/-- The text `cs` is read as `ls`, and its parentheses close each other and are nested `k` deep. -/
structure Fragment (strict : Bool) (cs : List Char) (ls : List Lexeme) (k : Nat) : Prop where
  lex_append : ∀ rest : List Char, (∀ d ∈ rest.head?, Token.isWordChar strict d = false) →
    lex strict (cs ++ rest) = ls ++ lex strict rest
  nesting_append : ∀ (outer : Nat) (rest : List Char),
    nesting outer (cs ++ rest) = max (outer + k) (nesting outer rest)

theorem le_nesting (outer : Nat) (cs : List Char) : outer ≤ nesting outer cs := by
  cases cs with
  | nil => exact Nat.le_refl _
  | cons c cs => exact Nat.le_max_left _ _

/-- Characters other than parentheses open nothing. -/
theorem nesting_append_of_forall {cs : List Char} (h : ∀ c ∈ cs, c ≠ '(' ∧ c ≠ ')') (outer : Nat)
    (rest : List Char) : nesting outer (cs ++ rest) = max (outer + 0) (nesting outer rest) := by
  have hrest := le_nesting outer rest
  induction cs with
  | nil => rw [List.nil_append]; omega
  | cons c cs ih =>
    obtain ⟨hopen, hclose⟩ := h c List.mem_cons_self
    rw [List.cons_append, nesting, if_neg hopen, if_neg hclose,
      ih fun d hd ↦ h d (List.mem_cons_of_mem c hd)]
    omega

theorem nesting_cons_of_ne {c : Char} (h : c ≠ '(' ∧ c ≠ ')') (outer : Nat) (cs : List Char) :
    nesting outer (c :: cs) = nesting outer cs := by
  have hrest := le_nesting outer cs
  rw [nesting, if_neg h.1, if_neg h.2]
  omega

/-- No parenthesis is a gap. -/
theorem ne_paren_of_isGap {c : Char} (h : Token.isGap c) : c ≠ '(' ∧ c ≠ ')' := by
  constructor <;> rintro rfl <;> revert h <;> decide

/-- No parenthesis belongs to a word. -/
theorem ne_paren_of_isWordChar {c : Char} (h : Token.isWordChar strict c) : c ≠ '(' ∧ c ≠ ')' := by
  have hle := toNat_of_isWordChar h
  constructor <;> rintro rfl <;> revert hle <;> decide

namespace Fragment

variable {cs ds : List Char} {ls ms : List Lexeme} {k l : Nat}

theorem cons_gap {c : Char} (hgap : Token.isGap c) (h : Fragment strict cs ls k) :
    Fragment strict (c :: cs) ls k := by
  refine ⟨fun rest hrest ↦ ?_, fun outer rest ↦ ?_⟩
  · rw [List.cons_append, lex_gap hgap, h.lex_append rest hrest]
  · rw [List.cons_append, nesting_cons_of_ne (ne_paren_of_isGap hgap), h.nesting_append]

theorem cons_symbol {c : Char} (hgap : Token.isGap c = false)
    (hword : Token.isWordChar strict c = false) (hparen : c ≠ '(' ∧ c ≠ ')')
    (h : Fragment strict cs ls k) : Fragment strict (c :: cs) (.symbol c :: ls) k := by
  refine ⟨fun rest hrest ↦ ?_, fun outer rest ↦ ?_⟩
  · rw [List.cons_append, lex_symbol hgap hword, h.lex_append rest hrest, List.cons_append]
  · rw [List.cons_append, nesting_cons_of_ne hparen, h.nesting_append]

theorem word {c : Char} (h : ∀ d ∈ c :: cs, Token.isWordChar strict d) :
    Fragment strict (c :: cs) [Token.ofWord c cs] 0 := by
  exact ⟨fun rest hrest ↦ lex_word h hrest,
    nesting_append_of_forall fun d hd ↦ ne_paren_of_isWordChar (h d hd)⟩

/-- Two fragments in a row, if no word of the first can go on in the second. -/
theorem append (h : Fragment strict cs ls k) (h' : Fragment strict ds ms l)
    (hds : ∀ d ∈ ds.head?, Token.isWordChar strict d = false) (hne : ds ≠ []) :
    Fragment strict (cs ++ ds) (ls ++ ms) (max k l) := by
  obtain ⟨d, ds, rfl⟩ := List.exists_cons_of_ne_nil hne
  refine ⟨fun rest hrest ↦ ?_, fun outer rest ↦ ?_⟩
  · have hhead : ∀ d' ∈ (d :: ds ++ rest).head?, Token.isWordChar strict d' = false := hds
    rw [List.append_assoc, h.lex_append _ hhead, h'.lex_append _ hrest, List.append_assoc]
  · rw [List.append_assoc, h.nesting_append, h'.nesting_append]
    omega

/-- A fragment in parentheses. -/
theorem parens (h : Fragment strict cs ls k) :
    Fragment strict ('(' :: cs ++ [')']) (.symbol '(' :: ls ++ [.symbol ')']) (k + 1) := by
  have hsymbol : ∀ c ∈ ['(', ')'], Token.isGap c = false ∧ Token.isWordChar strict c = false := by
    cases strict <;> simp <;> decide
  obtain ⟨hgap, hword⟩ := hsymbol '(' (by simp)
  obtain ⟨hgap', hword'⟩ := hsymbol ')' (by simp)
  refine ⟨fun rest _ ↦ ?_, fun outer rest ↦ ?_⟩
  · have hhead : ∀ d ∈ (')' :: rest).head?, Token.isWordChar strict d = false := by
      rintro _ ⟨rfl⟩
      exact hword'
    have htext : '(' :: cs ++ [')'] ++ rest = '(' :: (cs ++ ')' :: rest) := by simp
    rw [htext, lex_symbol hgap hword, h.lex_append _ hhead, lex_symbol hgap' hword']
    simp
  · have htext : '(' :: cs ++ [')'] ++ rest = '(' :: (cs ++ ')' :: rest) := by simp
    have hclose : nesting (outer + 1) (')' :: rest) = max (outer + 1) (nesting outer rest) := rfl
    rw [htext, nesting, if_pos rfl, h.nesting_append, hclose]
    omega

theorem lexemes_eq (h : Fragment strict cs ls k) :
    lexemes strict (String.ofList cs) = ls := by
  have hlex := h.lex_append [] (by simp)
  rw [List.append_nil, lex_nil] at hlex
  rw [lexemes_eq_dropLast_lex, String.toList_ofList, hlex, List.dropLast_concat]

theorem nesting_eq (h : Fragment strict cs ls k) : nesting 0 cs = k := by
  have hnesting := h.nesting_append 0 []
  rw [List.append_nil, nesting] at hnesting
  omega

end Fragment

end Formula.Grammar
