import Formula.Proofs.Grammar.Continuation
import Mathlib.Data.List.Sort

/-!
# The tokens of a text

`Token.scan` goes through a text from left to right and cuts off one token after another.  Here the
tokens of a text are described by what holds of them, whoever finds them.

* `StandsIn strict cs t` — the token is part of the text: it is a slice of it, a word is a longest
  run of the characters of words, and a symbol is a single character of another kind.
* `Tokenizes strict cs ts` — the tokens stand in the text, in order and without overlap, nothing but
  control characters and spaces is left between them, and the end comes last.

A character that is no gap belongs to one token at most that stands in the text
(`StandsIn.eq_of_covers`), and in a tokenization it belongs to one at least.  So the tokens of a
tokenization are all tokens that stand in the text (`Tokenizes.mem_iff`), and since their positions
increase there is only one tokenization (`Tokenizes.unique`).  The scanner gives it
(`tokenizes_ofText`).

`tokenizes_iff` is the main result.
-/

set_option autoImplicit false

namespace Formula.Token

/-! ## Kinds of characters -/

/-- A letter of the Latin alphabet, without any marks. -/
def Letter (c : Char) : Prop := 'A' ≤ c ∧ c ≤ 'Z' ∨ 'a' ≤ c ∧ c ≤ 'z'

/-- The characters of words: the digits, and outside the strict language the letters and the
point. -/
def WordCharacter (strict : Bool) (c : Char) : Prop :=
  '0' ≤ c ∧ c ≤ '9' ∨ strict = false ∧ (Letter c ∨ c = '.')

variable {strict : Bool}

theorem isAlpha_iff {c : Char} : c.isAlpha ↔ Letter c := by
  have hupper : c.isUpper ↔ 'A' ≤ c ∧ c ≤ 'Z' := decide_eq_true_iff
  have hlower : c.isLower ↔ 'a' ≤ c ∧ c ≤ 'z' :=
    Bool.and_eq_true_iff.trans (and_congr decide_eq_true_iff decide_eq_true_iff)
  exact Bool.or_eq_true_iff.trans (or_congr hupper hlower)

theorem isWordChar_iff {c : Char} : isWordChar strict c ↔ WordCharacter strict c := by
  rw [WordCharacter, ← isAlpha_iff]
  simp [isWordChar, Char.isDigit, Char.le_def]

theorem isGap_iff {c : Char} : isGap c ↔ c.toNat ≤ 32 := decide_eq_true_iff

theorem WordCharacter.lt_toNat {c : Char} (h : WordCharacter strict c) : 32 < c.toNat := by
  have := Grammar.toNat_of_isWordChar (isWordChar_iff.2 h)
  omega

/-! ## Tokens in a text -/

/-- The position after the last character of the token. -/
def stop (t : Token) : Nat := t.position + t.lexeme.text.length

/-- The character at a position belongs to the token. -/
def Covers (t : Token) (i : Nat) : Prop := t.position ≤ i ∧ i < t.stop

/-- The token is a longest run of the characters of words. -/
structure IsRun (strict : Bool) (cs : List Char) (t : Token) : Prop where
  ne_nil : t.lexeme.text ≠ []
  mem : ∀ c ∈ t.lexeme.text, WordCharacter strict c
  /-- It cannot be continued to the left. -/
  before : ∀ i c, i + 1 = t.position → cs[i]? = some c → ¬ WordCharacter strict c
  /-- It cannot be continued to the right. -/
  after : ∀ c, cs[t.stop]? = some c → ¬ WordCharacter strict c

/-- The token is part of the text. -/
structure StandsIn (strict : Bool) (cs : List Char) (t : Token) : Prop where
  /-- Its characters are those of the text at its position. -/
  slice : (cs.drop t.position).take t.lexeme.text.length = t.lexeme.text
  word : t.lexeme.isWord → t.IsRun strict cs
  /-- A word is a name if it begins with a letter. -/
  name : t.lexeme.isWord → (t.lexeme = .name t.lexeme.text ↔ ∃ c ∈ t.lexeme.text.head?, Letter c)
  symbol : ∀ c, t.lexeme = .symbol c → ¬ WordCharacter strict c ∧ 32 < c.toNat
  finish : t.lexeme = .finish → t.position = cs.length

/-- The text is cut into these tokens. -/
structure Tokenizes (strict : Bool) (cs : List Char) (ts : List Token) : Prop where
  stands : ∀ t ∈ ts, t.StandsIn strict cs
  increasing : ts.Pairwise fun t u ↦ t.position < u.position
  /-- No two tokens overlap. -/
  disjoint : ts.Pairwise fun t u ↦ t.stop ≤ u.position
  /-- What belongs to no token separates tokens. -/
  gap : ∀ i c, cs[i]? = some c → (∀ t ∈ ts, ¬ t.Covers i) → c.toNat ≤ 32
  /-- The end is the last token, and no other token is the end. -/
  finish : ∃ front, ts = front ++ [⟨.finish, cs.length⟩] ∧ ∀ t ∈ front, t.lexeme ≠ .finish

/-! ## One token at most -/

variable {cs : List Char} {t u : Token} {i : Nat}

/-- The characters of a token are those at the positions that it covers. -/
theorem StandsIn.exists_getElem? (h : t.StandsIn strict cs) (hi : t.Covers i) :
    ∃ c ∈ t.lexeme.text, cs[i]? = some c := by
  obtain ⟨hlower, hupper⟩ := hi
  rw [stop] at hupper
  have hk : i - t.position < t.lexeme.text.length := by omega
  have hget : t.lexeme.text[i - t.position]? = cs[i]? := by
    conv => lhs; rw [← h.slice]
    rw [List.getElem?_take_of_lt hk, List.getElem?_drop, Nat.add_sub_cancel' hlower]
  exact ⟨_, List.getElem_mem hk, hget ▸ List.getElem?_eq_getElem hk⟩

/-- A longest run that meets another one does not begin before it. -/
theorem StandsIn.position_le (ht : t.StandsIn strict cs) (hu : u.StandsIn strict cs)
    (htword : t.lexeme.isWord) (huword : u.lexeme.isWord) (hti : t.Covers i) (hui : u.Covers i) :
    t.position ≤ u.position := by
  by_contra hlt
  obtain ⟨j, hj⟩ : ∃ j, j + 1 = t.position := ⟨t.position - 1, by omega⟩
  obtain ⟨hti, -⟩ := hti
  obtain ⟨c, hc, hget⟩ := hu.exists_getElem? (i := j) ⟨by omega, by have := hui.2; omega⟩
  exact (ht.word htword).before j c hj hget ((hu.word huword).mem c hc)

/-- Nor does it end after it. -/
theorem StandsIn.stop_le (ht : t.StandsIn strict cs) (hu : u.StandsIn strict cs)
    (htword : t.lexeme.isWord) (huword : u.lexeme.isWord) (hti : t.Covers i) (hui : u.Covers i) :
    t.stop ≤ u.stop := by
  by_contra hlt
  obtain ⟨hti, -⟩ := hti
  obtain ⟨c, hc, hget⟩ := ht.exists_getElem? (i := u.stop) ⟨by have := hui.2; omega, by omega⟩
  exact (hu.word huword).after c hget ((ht.word htword).mem c hc)

/-- A word with given characters is a name or a number, by its first character. -/
theorem StandsIn.lexeme_eq (ht : t.StandsIn strict cs) (hu : u.StandsIn strict cs)
    (htword : t.lexeme.isWord) (huword : u.lexeme.isWord) (htext : t.lexeme.text = u.lexeme.text) :
    t.lexeme = u.lexeme := by
  have hname : t.lexeme = .name t.lexeme.text ↔ u.lexeme = .name u.lexeme.text := by
    rw [ht.name htword, hu.name huword, htext]
  cases htl : t.lexeme <;> cases hul : u.lexeme <;>
    simp_all [Lexeme.text, Lexeme.isWord]

/-- A character of a word is one of the characters of words, and a symbol is its only character. -/
theorem StandsIn.exists_char (h : t.StandsIn strict cs) (hi : t.Covers i) :
    ∃ c, cs[i]? = some c ∧ 32 < c.toNat ∧
      (t.lexeme.isWord ∧ WordCharacter strict c ∨
        t = ⟨.symbol c, i⟩ ∧ ¬ WordCharacter strict c) := by
  obtain ⟨c, hc, hget⟩ := h.exists_getElem? hi
  refine ⟨c, hget, ?_⟩
  obtain ⟨lexeme, position⟩ := t
  cases lexeme with
  | number word =>
    have hchar := (h.word rfl).mem c hc
    exact ⟨hchar.lt_toNat, .inl ⟨rfl, hchar⟩⟩
  | name word =>
    have hchar := (h.word rfl).mem c hc
    exact ⟨hchar.lt_toNat, .inl ⟨rfl, hchar⟩⟩
  | symbol d =>
    obtain rfl := List.mem_singleton.1 hc
    obtain ⟨hnot, hlt⟩ := h.symbol c rfl
    have hposition : position = i := Nat.le_antisymm hi.1 (Nat.le_of_lt_succ hi.2)
    exact ⟨hlt, .inr ⟨by rw [hposition], hnot⟩⟩
  | finish => cases hc

/-- **A character belongs to one token at most.** -/
theorem StandsIn.eq_of_covers (ht : t.StandsIn strict cs) (hu : u.StandsIn strict cs)
    (hti : t.Covers i) (hui : u.Covers i) : t = u := by
  obtain ⟨c, hget, -, ⟨htword, hchar⟩ | ⟨htsymbol, hnot⟩⟩ := ht.exists_char hti <;>
    obtain ⟨d, hget', -, ⟨huword, hchar'⟩ | ⟨husymbol, hnot'⟩⟩ := hu.exists_char hui <;>
    obtain rfl := Option.some.inj (hget.symm.trans hget')
  · have hposition := Nat.le_antisymm (ht.position_le hu htword huword hti hui)
      (hu.position_le ht huword htword hui hti)
    have hstop := Nat.le_antisymm (ht.stop_le hu htword huword hti hui)
      (hu.stop_le ht huword htword hui hti)
    have hlength : t.lexeme.text.length = u.lexeme.text.length := by
      rw [stop, stop] at hstop
      omega
    have htext : t.lexeme.text = u.lexeme.text := by
      rw [← ht.slice, ← hu.slice, hposition, hlength]
    have hlexeme := ht.lexeme_eq hu htword huword htext
    calc t = ⟨t.lexeme, t.position⟩ := rfl
      _ = u := by rw [hlexeme, hposition]
  · exact absurd hchar hnot'
  · exact absurd hchar' hnot
  · rw [htsymbol, husymbol]

/-! ## One tokenization at most -/

/-- Every token but the end has a first character. -/
theorem StandsIn.covers_position (h : t.StandsIn strict cs) (hne : t.lexeme ≠ .finish) :
    t.Covers t.position := by
  have hpos : 0 < t.lexeme.text.length := by
    cases hl : t.lexeme with
    | finish => exact absurd hl hne
    | symbol c => exact Nat.zero_lt_one
    | number word =>
      have hrun := h.word (by rw [hl]; rfl)
      exact List.length_pos_iff.2 (hl ▸ hrun.ne_nil)
    | name word =>
      have hrun := h.word (by rw [hl]; rfl)
      exact List.length_pos_iff.2 (hl ▸ hrun.ne_nil)
  exact ⟨Nat.le_refl _, Nat.lt_add_of_pos_right hpos⟩

variable {ts us : List Token}

/-- **The tokens are all tokens that stand in the text.** -/
theorem Tokenizes.mem_iff (h : Tokenizes strict cs ts) : t ∈ ts ↔ t.StandsIn strict cs := by
  refine ⟨h.stands t, fun ht ↦ ?_⟩
  by_cases hfinish : t.lexeme = .finish
  · obtain ⟨front, hts, -⟩ := h.finish
    have hend : t = ⟨.finish, cs.length⟩ := by rw [← ht.finish hfinish, ← hfinish]
    rw [hts, hend]
    exact List.mem_append_right _ List.mem_cons_self
  · -- the first character belongs to some token, and that is the only one
    have hcovers := ht.covers_position hfinish
    obtain ⟨c, hget, hlt, -⟩ := ht.exists_char hcovers
    obtain ⟨u, hu, hucovers⟩ : ∃ u ∈ ts, u.Covers t.position := by
      by_contra hnone
      have := h.gap _ c hget (by simpa using hnone)
      omega
    exact ht.eq_of_covers (h.stands u hu) hcovers hucovers ▸ hu

/-- **A text has one tokenization at most.** -/
theorem Tokenizes.unique (h : Tokenizes strict cs ts) (h' : Tokenizes strict cs us) : ts = us := by
  have hirrefl : Std.Irrefl fun t u : Token ↦ t.position < u.position := ⟨fun _ ↦ Nat.lt_irrefl _⟩
  have hantisymm : Std.Antisymm fun t u : Token ↦ t.position < u.position :=
    ⟨fun _ _ hlt hgt ↦ absurd hlt (Nat.lt_asymm hgt)⟩
  exact h.increasing.eq_of_mem_iff h'.increasing fun t ↦ h.mem_iff.trans h'.mem_iff.symm

/-! ## The tokens of the scanner -/

/-- A word that has been cut off stands in the text, if none ends just before it. -/
theorem standsIn_word {pre word rest : List Char} {c : Char}
    (hpre : ∀ d ∈ pre.getLast?, isWordChar strict d = false)
    (hword : ∀ d ∈ c :: word, isWordChar strict d)
    (hrest : ∀ d ∈ rest.head?, isWordChar strict d = false) :
    (⟨ofWord c word, pre.length⟩ : Token).StandsIn strict (pre ++ (c :: word ++ rest)) where
  slice := by
    rw [List.drop_left, text_ofWord, List.take_left]
  word _ := {
    ne_nil := by rw [text_ofWord]; exact List.cons_ne_nil c word
    mem := fun d hd ↦ isWordChar_iff.1 (hword d (text_ofWord c word ▸ hd))
    before := fun i d hi hget ↦ by
      have hi : i + 1 = pre.length := hi
      have hlast : pre.getLast? = some d := by
        rw [List.getElem?_append_left (by omega)] at hget
        rw [List.getLast?_eq_getElem?, ← hi, Nat.add_sub_cancel, hget]
      rw [← isWordChar_iff, hpre d hlast]
      exact Bool.false_ne_true
    after := fun d hget ↦ by
      rw [stop, text_ofWord] at hget
      rw [List.getElem?_append_right (Nat.le_add_right _ _), Nat.add_sub_cancel_left,
        List.getElem?_append_right (Nat.le_refl _), Nat.sub_self, ← List.head?_eq_getElem?] at hget
      rw [← isWordChar_iff, hrest d hget]
      exact Bool.false_ne_true }
  name _ := by
    rw [text_ofWord, List.head?_cons]
    simp only [Option.mem_def, Option.some.injEq, exists_eq_left', ← isAlpha_iff]
    rw [ofWord]
    split <;> simp_all
  symbol d hd := by
    rw [ofWord] at hd
    split at hd <;> cases hd
  finish hd := by
    rw [ofWord] at hd
    split at hd <;> cases hd

theorem standsIn_symbol {c : Char} (hgap : isGap c = false) (hword : isWordChar strict c = false)
    (pre rest : List Char) :
    (⟨.symbol c, pre.length⟩ : Token).StandsIn strict (pre ++ c :: rest) where
  slice := by
    rw [List.drop_left]
    rfl
  word h := by cases h
  name h := by cases h
  symbol d hd := by
    obtain rfl := Lexeme.symbol.inj hd
    refine ⟨fun h ↦ ?_, not_le.1 fun h ↦ ?_⟩
    · rw [isWordChar_iff.2 h] at hword
      cases hword
    · rw [isGap_iff.2 h] at hgap
      cases hgap
  finish h := by cases h

theorem standsIn_finish (cs : List Char) :
    (⟨.finish, cs.length⟩ : Token).StandsIn strict cs where
  slice := List.take_zero
  word h := by cases h
  name h := by cases h
  symbol c h := by cases h
  finish _ := rfl

/-- What is scanned after the beginning of a text stands in the whole text, if no word runs from one
into the other. -/
theorem standsIn_scan (strict : Bool) (position : Nat) (cs : List Char) :
    ∀ pre : List Char, pre.length = position →
      (∀ c ∈ pre.getLast?, ∀ d ∈ cs.head?, isWordChar strict d → isWordChar strict c = false) →
      ∀ t ∈ scan strict position cs, t.StandsIn strict (pre ++ cs) := by
  fun_induction scan strict position cs with
  | case1 position =>
    rintro pre rfl - t ht
    obtain rfl := List.mem_singleton.1 ht
    rw [List.append_nil]
    exact standsIn_finish pre
  | case2 position c cs hgap ih =>
    rintro pre rfl -
    have hc : isWordChar strict c = false := by
      by_contra hchar
      rw [Grammar.isGap_of_isWordChar (Bool.eq_true_of_not_eq_false hchar)] at hgap
      cases hgap
    have hstands := ih (pre ++ [c]) List.length_append (by simp [hc])
    simpa using hstands
  | case3 position c cs hgap hword word ih =>
    rintro pre rfl hpre
    have hsplit : c :: cs = c :: word ++ cs.dropWhile (isWordChar strict) := by
      rw [List.cons_append, List.takeWhile_append_dropWhile]
    have hchars : ∀ d ∈ c :: word, isWordChar strict d := by
      intro d hd
      obtain rfl | hd := List.mem_cons.1 hd
      · exact hword
      · exact List.mem_takeWhile_imp hd
    have hrest : ∀ d ∈ (cs.dropWhile (isWordChar strict)).head?, isWordChar strict d = false := by
      intro d hd
      have := List.head?_dropWhile_not (isWordChar strict) cs
      rwa [hd] at this
    rw [hsplit]
    intro t ht
    obtain rfl | ht := List.mem_cons.1 ht
    · exact standsIn_word (fun d hd ↦ hpre d hd c rfl hword) hchars hrest
    · have hlength : (pre ++ c :: word).length = pre.length + 1 + word.length := by
        rw [List.length_append, List.length_cons]
        omega
      have hstands := ih (pre ++ c :: word) hlength fun d _ e he hchar ↦ by
        rw [hrest e he] at hchar
        cases hchar
      rw [← List.append_assoc]
      exact hstands t ht
  | case4 position c cs hgap hword ih =>
    rintro pre rfl - t ht
    have hc : isWordChar strict c = false := Bool.eq_false_of_not_eq_true hword
    obtain rfl | ht := List.mem_cons.1 ht
    · exact standsIn_symbol (Bool.eq_false_of_not_eq_true hgap) hc pre cs
    · have hstands := ih (pre ++ [c]) List.length_append (by simp [hc])
      rw [List.append_cons]
      exact hstands t ht

theorem le_position_of_mem_scan (strict : Bool) (position : Nat) (cs : List Char) :
    ∀ t ∈ scan strict position cs, position ≤ t.position := by
  fun_induction scan strict position cs with
  | case1 position => simp
  | case2 position c cs hgap ih => exact fun t ht ↦ Nat.le_of_succ_le (ih t ht)
  | case3 position c cs hgap hword word ih =>
    intro t ht
    obtain rfl | ht := List.mem_cons.1 ht
    · exact Nat.le_refl _
    · have := ih t ht
      omega
  | case4 position c cs hgap hword ih =>
    intro t ht
    obtain rfl | ht := List.mem_cons.1 ht
    · exact Nat.le_refl _
    · exact Nat.le_of_succ_le (ih t ht)

/-- A token ends after its first character, and before the next token begins. -/
theorem pairwise_scan (strict : Bool) (position : Nat) (cs : List Char) :
    (scan strict position cs).Pairwise fun t u ↦ t.position < t.stop ∧ t.stop ≤ u.position := by
  fun_induction scan strict position cs with
  | case1 position => exact List.pairwise_singleton _ _
  | case2 position c cs hgap ih => exact ih
  | case3 position c cs hgap hword word ih =>
    refine List.pairwise_cons.2 ⟨fun u hu ↦ ?_, ih⟩
    have hle := le_position_of_mem_scan strict _ _ u hu
    rw [stop, text_ofWord, List.length_cons]
    dsimp only
    omega
  | case4 position c cs hgap hword ih =>
    exact List.pairwise_cons.2
      ⟨fun u hu ↦ ⟨Nat.lt_succ_self _, le_position_of_mem_scan strict _ _ u hu⟩, ih⟩

/-- What no token covers is a gap. -/
theorem isGap_of_not_covers (strict : Bool) (position : Nat) (cs : List Char) :
    ∀ (i : Nat) (c : Char), cs[i]? = some c →
      (∀ t ∈ scan strict position cs, ¬ t.Covers (position + i)) → isGap c := by
  fun_induction scan strict position cs with
  | case1 position => simp
  | case2 position d cs hgap ih =>
    intro i c hget hnone
    cases i with
    | zero =>
      obtain rfl : d = c := by simpa using hget
      exact hgap
    | succ i =>
      refine ih i c (by simpa using hget) fun t ht ↦ ?_
      rw [Nat.add_assoc, Nat.add_comm 1]
      exact hnone t ht
  | case3 position d cs hgap hword word ih =>
    intro i c hget hnone
    have hword : ¬ (⟨ofWord d word, position⟩ : Token).Covers (position + i) :=
      hnone _ List.mem_cons_self
    rw [Covers, stop, text_ofWord, List.length_cons] at hword
    dsimp only at hword
    obtain ⟨k, rfl⟩ : ∃ k, i = 1 + word.length + k := ⟨i - (1 + word.length), by omega⟩
    refine ih k c ?_ fun t ht ↦ ?_
    · have hsplit : cs = word ++ cs.dropWhile (isWordChar strict) :=
        List.takeWhile_append_dropWhile.symm
      rw [Nat.add_assoc, Nat.add_comm 1, List.getElem?_cons_succ, hsplit,
        List.getElem?_append_right (Nat.le_add_right _ _), Nat.add_sub_cancel_left] at hget
      exact hget
    · have hnot := hnone t (List.mem_cons_of_mem _ ht)
      rwa [← Nat.add_assoc, ← Nat.add_assoc] at hnot
  | case4 position d cs hgap hword ih =>
    intro i c hget hnone
    cases i with
    | zero =>
      exact absurd ⟨Nat.le_refl _, Nat.lt_succ_self _⟩ (hnone _ List.mem_cons_self)
    | succ i =>
      refine ih i c (by simpa using hget) fun t ht ↦ ?_
      rw [Nat.add_assoc, Nat.add_comm 1]
      exact hnone t (List.mem_cons_of_mem _ ht)

/-- **The scanner cuts the text into its tokens.** -/
theorem tokenizes_ofText (strict : Bool) (text : String) :
    Tokenizes strict text.toList (ofText strict text) where
  stands := standsIn_scan strict 0 text.toList [] rfl (by simp)
  increasing := (pairwise_scan strict 0 text.toList).imp fun h ↦ h.1.trans_le h.2
  disjoint := (pairwise_scan strict 0 text.toList).imp And.right
  gap i c hget hnone := by
    refine isGap_iff.1 (isGap_of_not_covers strict 0 text.toList i c hget fun t ht ↦ ?_)
    rw [Nat.zero_add]
    exact hnone t ht
  finish := ⟨_, Grammar.scan_eq_append strict text, lexeme_ne_finish strict 0 text.toList⟩

/-! ## Texts put together -/

/-- The same token so many characters further on. -/
def shift (n : Nat) (t : Token) : Token := { t with position := t.position + n }

/-- A text has the same tokens wherever it begins. -/
theorem scan_add (strict : Bool) (n position : Nat) (cs : List Char) :
    scan strict (position + n) cs = (scan strict position cs).map (shift n) := by
  fun_induction scan strict position cs with
  | case1 position => rw [scan]; rfl
  | case2 position c cs hgap ih => rw [scan, if_pos hgap, Nat.add_right_comm, ih]
  | case3 position c cs hgap hword word ih =>
    have hnext : position + n + 1 + word.length = position + 1 + word.length + n := by omega
    rw [scan, if_neg hgap, if_pos hword, List.map_cons, ← ih, ← hnext]
    rfl
  | case4 position c cs hgap hword ih =>
    rw [scan, if_neg hgap, if_neg hword, Nat.add_right_comm, ih]
    rfl

/-- **A gap cuts a text in two**, each of which is cut into tokens by itself. -/
theorem ofText_append_gap (strict : Bool) (u v : String) {w : Char} (hw : w.toNat ≤ 32) :
    ofText strict (u ++ String.singleton w ++ v) =
      (ofText strict u).dropLast ++ (ofText strict v).map (shift (u.length + 1)) := by
  have hgap : isGap w := isGap_iff.2 hw
  have hhead : ∀ d ∈ (w :: v.toList).head?, isWordChar strict d = false := by
    rintro _ ⟨rfl⟩
    by_contra hchar
    rw [Grammar.isGap_of_isWordChar (Bool.eq_true_of_not_eq_false hchar)] at hgap
    cases hgap
  have htext : (u ++ String.singleton w ++ v).toList = u.toList ++ w :: v.toList := by simp
  rw [ofText, htext, scan_append strict 0 _ hhead, scan, if_pos hgap, ofText, ofText, ← scan_add,
    String.length_toList, Nat.zero_add, Nat.zero_add]

/-- The texts of the tokens, each with the characters before it that belong to no token. -/
def weave (gaps : List (List Char)) (ts : List Token) : List Char :=
  (List.zipWith (fun gap t ↦ gap ++ t.lexeme.text) gaps ts).flatten

/-- **Nothing is lost** but control characters and spaces. -/
theorem exists_weave_scan (strict : Bool) (position : Nat) (cs : List Char) :
    ∃ gaps : List (List Char), gaps.length = (scan strict position cs).length ∧
      (∀ gap ∈ gaps, ∀ c ∈ gap, c.toNat ≤ 32) ∧ weave gaps (scan strict position cs) = cs := by
  fun_induction scan strict position cs with
  | case1 position => exact ⟨[[]], rfl, by simp, rfl⟩
  | case2 position c cs hgap ih =>
    -- the gap goes to the next token, and there is one, be it the end
    obtain ⟨gaps, hlength, hgaps, hweave⟩ := ih
    obtain ⟨t, ts, hts⟩ := List.exists_cons_of_ne_nil (scan_ne_nil strict (position + 1) cs)
    rw [hts] at hlength hweave ⊢
    obtain ⟨gap, gaps, rfl⟩ := List.exists_cons_of_length_eq_add_one hlength
    refine ⟨(c :: gap) :: gaps, hlength, ?_, congrArg (c :: ·) hweave⟩
    obtain ⟨hgap', hgaps⟩ := List.forall_mem_cons.1 hgaps
    exact List.forall_mem_cons.2 ⟨List.forall_mem_cons.2 ⟨isGap_iff.1 hgap, hgap'⟩, hgaps⟩
  | case3 position c cs hgap hword word ih =>
    obtain ⟨gaps, hlength, hgaps, hweave⟩ := ih
    refine ⟨[] :: gaps, by simpa using hlength, by simpa using hgaps, ?_⟩
    have hsplit : c :: word ++ cs.dropWhile (isWordChar strict) = c :: cs := by
      rw [List.cons_append, List.takeWhile_append_dropWhile]
    rw [weave, List.zipWith_cons_cons, List.flatten_cons, List.nil_append, text_ofWord]
    exact (congrArg (c :: word ++ ·) hweave).trans hsplit
  | case4 position c cs hgap hword ih =>
    obtain ⟨gaps, hlength, hgaps, hweave⟩ := ih
    exact ⟨[] :: gaps, by simpa using hlength, by simpa using hgaps, congrArg (c :: ·) hweave⟩

/-- **The tokens of a text.**  In either language a text has exactly one list of tokens with these
properties: the tokens are slices of the text, in order and without overlap; the characters between
them are control characters and spaces; words are longest runs of the characters of words, and names
if they begin with a letter; symbols are single characters of any other kind; and the end comes
last, and only there.  That is the list that the scanner gives.  So the text can be put together
from its tokens and what is between them, and if two texts are joined by a control character or a
space, the tokens of the first one are followed by those of the second one. -/
theorem tokenizes_iff (strict : Bool) :
    (∀ (text : String) (ts : List Token),
      Tokenizes strict text.toList ts ↔ ts = ofText strict text) ∧
    (∀ text : String, ∃ gaps : List (List Char), gaps.length = (ofText strict text).length ∧
      (∀ gap ∈ gaps, ∀ c ∈ gap, c.toNat ≤ 32) ∧ weave gaps (ofText strict text) = text.toList) ∧
    ∀ (u v : String) (w : Char), w.toNat ≤ 32 →
      ofText strict (u ++ String.singleton w ++ v) =
        (ofText strict u).dropLast ++ (ofText strict v).map (shift (u.length + 1)) := by
  refine ⟨fun text ts ↦ ⟨fun h ↦ h.unique (tokenizes_ofText strict text), ?_⟩,
    fun text ↦ exists_weave_scan strict 0 text.toList, fun u v w ↦ ofText_append_gap strict u v⟩
  rintro rfl
  exact tokenizes_ofText strict text

/-- A name, a symbol that nobody knows, a number with a point and a letter, and a tabulator between
two texts; in the strict language the same characters are cut up further. -/
theorem tokenizes_iff_root :
    Tokenizes false "√Sin .5e2".toList
        [⟨.symbol '√', 0⟩, ⟨.name ['S', 'i', 'n'], 1⟩, ⟨.number ['.', '5', 'e', '2'], 5⟩,
          ⟨.finish, 9⟩] ∧
      Tokenizes true "5e2".toList
        [⟨.number ['5'], 0⟩, ⟨.symbol 'e', 1⟩, ⟨.number ['2'], 2⟩, ⟨.finish, 3⟩] ∧
      ofText false ("1" ++ String.singleton '\t' ++ "2") =
        [⟨.number ['1'], 0⟩, ⟨.number ['2'], 2⟩, ⟨.finish, 3⟩] := by
  have hone : ofText false "1" = [⟨.number ['1'], 0⟩, ⟨.finish, 1⟩] := by decide +kernel
  have htwo : ofText false "2" = [⟨.number ['2'], 0⟩, ⟨.finish, 1⟩] := by decide +kernel
  refine ⟨((tokenizes_iff false).1 _ _).2 (by decide +kernel),
    ((tokenizes_iff true).1 _ _).2 (by decide +kernel), ?_⟩
  rw [(tokenizes_iff false).2.2 "1" "2" '\t' (by decide), hone, htwo]
  decide

end Formula.Token
