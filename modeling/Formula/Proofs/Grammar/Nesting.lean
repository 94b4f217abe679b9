import Formula.Proofs.Grammar.Reading
import Formula.Proofs.Rendering.Fragment

/-!
# How deep a text is nested

A derivation of the grammar carries a bound for the number of levels that groups and calls are
nested.  Every level is a pair of parentheses, and there are no other parentheses, so the smallest
bound that will do can be counted in the text: it is the largest number of parentheses that are open
at once (`nesting`).

* `symbols ls` — the symbols among lexemes, in order.
* `Spans k ls` — the parentheses of the lexemes close each other and are nested `k` deep.
* `Operand.mono` and its companions — a larger bound will do as well.
* `Chain.exists_spans` and its companions — and so will the number of parentheses.
* `Spells.nesting_le` and `Spells.tight` — the main results: what this says of a text.
-/

set_option autoImplicit false

namespace Formula

/-- The character that a lexeme is, if it is no word. -/
def Lexeme.symbol? : Lexeme → Option Char
  | .symbol c => some c
  | _ => none

namespace Grammar

/-! ## Symbols -/

/-- The symbols among lexemes, in order. -/
def symbols (ls : List Lexeme) : List Char := ls.filterMap Lexeme.symbol?

theorem symbols_append (ls ms : List Lexeme) : symbols (ls ++ ms) = symbols ls ++ symbols ms :=
  List.filterMap_append

theorem symbols_cons_symbol (c : Char) (ls : List Lexeme) :
    symbols (.symbol c :: ls) = c :: symbols ls := rfl

theorem symbols_cons_word {l : Lexeme} (h : l.isWord) (ls : List Lexeme) :
    symbols (l :: ls) = symbols ls := by
  cases l with
  | number word => rfl
  | name word => rfl
  | symbol c => cases h
  | finish => cases h

theorem isWord_ofWord (c : Char) (cs : List Char) : (Token.ofWord c cs).isWord := by
  rw [Token.ofWord]
  split <;> rfl

/-- Parentheses are symbols, so nothing else matters to the nesting. -/
theorem nesting_symbols_scan (strict : Bool) (position : Nat) (cs : List Char) : ∀ outer : Nat,
    nesting outer (symbols ((Token.scan strict position cs).map Token.lexeme)) =
      nesting outer cs := by
  fun_induction Token.scan strict position cs with
  | case1 position => exact fun _ ↦ rfl
  | case2 position c cs hgap ih =>
    intro outer
    rw [ih, nesting_cons_of_ne (ne_paren_of_isGap hgap)]
  | case3 position c cs hgap hword word ih =>
    intro outer
    have hfront : ∀ d ∈ c :: cs.takeWhile (Token.isWordChar strict), d ≠ '(' ∧ d ≠ ')' := by
      intro d hd
      obtain rfl | hd := List.mem_cons.1 hd
      · exact ne_paren_of_isWordChar hword
      · exact ne_paren_of_isWordChar (List.mem_takeWhile_imp hd)
    have hsplit : c :: cs = c :: cs.takeWhile (Token.isWordChar strict) ++
        cs.dropWhile (Token.isWordChar strict) := by
      rw [List.cons_append, List.takeWhile_append_dropWhile]
    have hrest := le_nesting outer (cs.dropWhile (Token.isWordChar strict))
    rw [List.map_cons, symbols_cons_word (isWord_ofWord _ _), ih, hsplit,
      nesting_append_of_forall hfront]
    omega
  | case4 position c cs hgap hword ih =>
    intro outer
    rw [List.map_cons, symbols_cons_symbol, nesting, nesting, ih]

theorem nesting_symbols_lexemes (strict : Bool) (text : String) :
    nesting 0 (symbols (lexemes strict text)) = nesting 0 text.toList := by
  have hfinish : symbols ((Token.ofText strict text).map Token.lexeme) =
      symbols (lexemes strict text) := by
    rw [scan_eq_append, List.map_append, symbols_append]
    exact List.append_nil _
  rw [← hfinish]
  exact nesting_symbols_scan strict 0 text.toList 0

/-! ## Parentheses that close each other -/

/-- The parentheses of the lexemes close each other and are nested `k` deep. -/
def Spans (k : Nat) (ls : List Lexeme) : Prop :=
  ∀ (outer : Nat) (rest : List Char),
    nesting outer (symbols ls ++ rest) = max (outer + k) (nesting outer rest)

theorem Spans.nesting_eq {k : Nat} {ls : List Lexeme} (h : Spans k ls) :
    nesting 0 (symbols ls) = k := by
  have hnesting := h 0 []
  rw [List.append_nil, nesting] at hnesting
  omega

theorem spans_nil : Spans 0 [] := nesting_append_of_forall (by simp [symbols])

theorem Spans.append {k l : Nat} {ls ms : List Lexeme} (h : Spans k ls) (h' : Spans l ms) :
    Spans (max k l) (ls ++ ms) := by
  intro outer rest
  rw [symbols_append, List.append_assoc, h, h']
  omega

theorem Spans.cons_word {k : Nat} {ls : List Lexeme} (h : Spans k ls) {l : Lexeme}
    (hl : l.isWord) : Spans k (l :: ls) := by
  intro outer rest
  rw [symbols_cons_word hl, h]

theorem Spans.cons_symbol {k : Nat} {ls : List Lexeme} (h : Spans k ls) {c : Char}
    (hc : c ≠ '(' ∧ c ≠ ')') : Spans k (.symbol c :: ls) := by
  intro outer rest
  rw [symbols_cons_symbol, List.cons_append, nesting_cons_of_ne hc, h]

theorem Spans.parens {k : Nat} {ls : List Lexeme} (h : Spans k ls) :
    Spans (k + 1) (.symbol '(' :: ls ++ [.symbol ')']) := by
  intro outer rest
  have hclose : nesting (outer + 1) (')' :: rest) = max (outer + 1) (nesting outer rest) := rfl
  have hsymbols : symbols (.symbol '(' :: ls ++ [.symbol ')']) ++ rest =
      '(' :: (symbols ls ++ ')' :: rest) := by
    rw [symbols_append, symbols_cons_symbol]
    simp [symbols, Lexeme.symbol?]
  rw [hsymbols, nesting, if_pos rfl, h, hclose]
  omega

theorem Signs.spans {dialect : Dialect} {ss : List Lexeme} {negative : Bool}
    (h : Signs dialect ss negative) : Spans 0 ss := by
  refine nesting_append_of_forall fun c hc ↦ ?_
  obtain ⟨l, hl, hlc⟩ := List.mem_filterMap.1 hc
  obtain ⟨-, rfl | rfl⟩ := h.mem l hl <;> cases hlc <;> decide

/-! ## Larger bounds -/

variable {ctx : Reader.Context}

mutual

/-- **A larger bound will do as well.** -/
theorem Operand.mono : ∀ {n m : Nat} {ls : List Lexeme} {e : Expr}, Operand ctx n ls e → n ≤ m →
    Operand ctx m ls e
  | _, _, _, _, .number hsigns hliteral, _ => .number hsigns hliteral
  | _, m, _, _, .group hsigns hchain, h => by
    obtain ⟨m, rfl⟩ : ∃ k, m = k + 1 := ⟨m - 1, by omega⟩
    exact .group hsigns (hchain.mono (Nat.le_of_succ_le_succ h))
  | _, m, _, _, .call hsigns hstrict hf hcounted harguments, h => by
    obtain ⟨m, rfl⟩ : ∃ k, m = k + 1 := ⟨m - 1, by omega⟩
    exact .call hsigns hstrict hf hcounted (harguments.mono (Nat.le_of_succ_le_succ h))

theorem Chain.mono : ∀ {n m : Nat} {ls : List Lexeme} {head : Expr} {links : List Link},
    Chain ctx n ls head links → n ≤ m → Chain ctx m ls head links
  | _, _, _, _, _, .single hoperand, h => .single (hoperand.mono h)
  | _, _, _, _, _, .link op hchain hoperand, h => .link op (hchain.mono h) (hoperand.mono h)

theorem Arguments.mono : ∀ {n m k : Nat} {ls : List Lexeme} {es : List Expr},
    Arguments ctx n k ls es → n ≤ m → Arguments ctx m k ls es
  | _, _, _, _, _, .first hchain, h => .first (hchain.mono h)
  | _, _, _, _, _, .next harguments hchain, h => .next (harguments.mono h) (hchain.mono h)

end

/-! ## The smallest bound -/

theorem symbol_ne_paren (op : Operator) : op.symbol ≠ '(' ∧ op.symbol ≠ ')' := by
  cases op <;> decide

mutual

/-- **The smallest bound is the number of parentheses that are open at once.** -/
theorem Operand.exists_spans : ∀ {n : Nat} {ls : List Lexeme} {e : Expr}, Operand ctx n ls e →
    ∃ k ≤ n, Operand ctx k ls e ∧ Spans k ls
  | _, _, _, .number hsigns hliteral =>
    ⟨0, Nat.zero_le _, .number hsigns hliteral,
      hsigns.spans.append (spans_nil.cons_word rfl)⟩
  | _, _, _, .group hsigns hchain => by
    obtain ⟨k, hk, htight, hspans⟩ := hchain.exists_spans
    refine ⟨k + 1, Nat.succ_le_succ hk, .group hsigns htight, ?_⟩
    have hall := hsigns.spans.append hspans.parens
    rwa [Nat.zero_max, List.cons_append, ← List.cons_append, ← List.append_assoc] at hall
  | _, _, _, @Operand.call _ _ _ _ _ name _ _ hsigns hstrict hf hcounted harguments => by
    obtain ⟨k, hk, htight, hspans⟩ := harguments.exists_spans
    refine ⟨k + 1, Nat.succ_le_succ hk, .call hsigns hstrict hf hcounted htight, ?_⟩
    have hname : (Lexeme.name name).isWord := rfl
    have hall := hsigns.spans.append (hspans.parens.cons_word hname)
    rwa [Nat.zero_max, ← List.cons_append, ← List.append_assoc] at hall

theorem Chain.exists_spans : ∀ {n : Nat} {ls : List Lexeme} {head : Expr} {links : List Link},
    Chain ctx n ls head links → ∃ k ≤ n, Chain ctx k ls head links ∧ Spans k ls
  | _, _, _, _, .single hoperand => by
    obtain ⟨k, hk, htight, hspans⟩ := hoperand.exists_spans
    exact ⟨k, hk, .single htight, hspans⟩
  | _, _, _, _, .link op hchain hoperand => by
    obtain ⟨k, hk, hchain, hspans⟩ := hchain.exists_spans
    obtain ⟨l, hl, hoperand, hspans'⟩ := hoperand.exists_spans
    exact ⟨max k l, Nat.max_le.2 ⟨hk, hl⟩,
      .link op (hchain.mono (Nat.le_max_left k l)) (hoperand.mono (Nat.le_max_right k l)),
      hspans.append (hspans'.cons_symbol (symbol_ne_paren op))⟩

theorem Arguments.exists_spans : ∀ {n k : Nat} {ls : List Lexeme} {es : List Expr},
    Arguments ctx n k ls es → ∃ m ≤ n, Arguments ctx m k ls es ∧ Spans m ls
  | _, _, _, _, .first hchain => by
    obtain ⟨k, hk, htight, hspans⟩ := hchain.exists_spans
    exact ⟨k, hk, .first htight, hspans⟩
  | _, _, _, _, .next harguments hchain => by
    obtain ⟨k, hk, harguments, hspans⟩ := harguments.exists_spans
    obtain ⟨l, hl, hchain, hspans'⟩ := hchain.exists_spans
    exact ⟨max k l, Nat.max_le.2 ⟨hk, hl⟩,
      .next (harguments.mono (Nat.le_max_left k l)) (hchain.mono (Nat.le_max_right k l)),
      hspans.append (hspans'.cons_symbol (by decide))⟩

end

/-! ## Texts -/

variable {strict : Bool} {text : String} {n : Nat} {e : Expr}

theorem Spells.exists_spans {ls : List Lexeme} (h : Spells ctx n ls e) :
    ∃ k ≤ n, Spells ctx k ls e ∧ Spans k ls := by
  obtain ⟨head, links, hchain, rfl⟩ := h
  obtain ⟨k, hk, htight, hspans⟩ := hchain.exists_spans
  exact ⟨k, hk, ⟨head, links, htight, rfl⟩, hspans⟩

/-- **A text has at least as many levels as its parentheses are nested.** -/
theorem Spells.nesting_le (h : Spells ctx n (lexemes strict text) e) :
    nesting 0 text.toList ≤ n := by
  obtain ⟨k, hk, -, hspans⟩ := h.exists_spans
  rw [← nesting_symbols_lexemes strict, hspans.nesting_eq]
  exact hk

/-- **And no more are needed.** -/
theorem Spells.tight (h : Spells ctx n (lexemes strict text) e) :
    Spells ctx (nesting 0 text.toList) (lexemes strict text) e := by
  obtain ⟨k, -, htight, hspans⟩ := h.exists_spans
  rwa [← nesting_symbols_lexemes strict, hspans.nesting_eq]

end Grammar

end Formula
