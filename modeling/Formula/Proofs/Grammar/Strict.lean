import Formula.Proofs.Grammar.Reading

/-!
# The strict language

The strict language has words of its own: it knows no letters and no point, so what is a word of the
full language falls into single symbols, and signs before an operand are symbols that do not belong
there.  All of this is only another way to leave things out.  The strict language is what remains of
the full one without letters, points and signs (`Restricted`), and a text that is in both has the
same expression in both.

The argument has two steps.

* A text without letters and points has the same tokens in both languages (`scan_eq`), and in the
  strict one a letter or a point is a symbol that no reader takes (`isExtra_of_read`).
* On the same tokens the two readers differ only at a sign before an operand (`read_eq`).  Whether a
  token stands before an operand can be told from the token before it, as long as there are no
  calls: this is the invariant `Stands`, which `Stands.read` keeps.

`parseRaw_strict_iff` is the main result.
-/

set_option autoImplicit false

namespace Formula

/-! ## Characters and tokens -/

namespace Token

/-- The characters that only the words of the full language have. -/
def isExtra (c : Char) : Bool := c.isAlpha || c = '.'

theorem isWordChar_eq {c : Char} (h : isExtra c = false) :
    isWordChar true c = isWordChar false c := by
  rw [isExtra] at h
  simp [isWordChar, h]

theorem takeWhile_isWordChar_eq {cs : List Char} (h : ∀ c ∈ cs, isExtra c = false) :
    cs.takeWhile (isWordChar true) = cs.takeWhile (isWordChar false) ∧
      cs.dropWhile (isWordChar true) = cs.dropWhile (isWordChar false) := by
  induction cs with
  | nil => exact ⟨rfl, rfl⟩
  | cons c cs ih =>
    obtain ⟨htake, hdrop⟩ := ih fun d hd ↦ h d (List.mem_cons_of_mem c hd)
    have hc := isWordChar_eq (h c List.mem_cons_self)
    rw [List.takeWhile_cons, List.takeWhile_cons, List.dropWhile_cons, List.dropWhile_cons, hc,
      htake, hdrop]
    exact ⟨rfl, rfl⟩

/-- A text without letters and points has the same tokens in both languages. -/
theorem scan_eq {cs : List Char} (h : ∀ c ∈ cs, isExtra c = false) (position : Nat) :
    scan true position cs = scan false position cs := by
  fun_induction scan true position cs with
  | case1 position => rw [scan]
  | case2 position c cs hgap ih =>
    rw [scan, if_pos hgap]
    exact ih fun d hd ↦ h d (List.mem_cons_of_mem c hd)
  | case3 position c cs hgap hword word ih =>
    have hcs : ∀ d ∈ cs, isExtra d = false := fun d hd ↦ h d (List.mem_cons_of_mem c hd)
    obtain ⟨htake, hdrop⟩ := takeWhile_isWordChar_eq hcs
    rw [isWordChar_eq (h c List.mem_cons_self)] at hword
    rw [ih fun d hd ↦ hcs d (List.dropWhile_subset _ hd), scan, if_neg hgap, if_pos hword]
    simp only [word, htake, hdrop]
  | case4 position c cs hgap hword ih =>
    rw [isWordChar_eq (h c List.mem_cons_self)] at hword
    rw [ih fun d hd ↦ h d (List.mem_cons_of_mem c hd), scan.eq_2, if_neg hgap, if_neg hword]

theorem ofText_eq {text : String} (h : ∀ c ∈ text.toList, isExtra c = false) :
    ofText true text = ofText false text := scan_eq h 0

end Token

/-- The same context for the strict language, or for the full one. -/
def Reader.Context.withStrict (ctx : Reader.Context) (strict : Bool) : Reader.Context :=
  { ctx with dialect := { ctx.dialect with strict := strict } }

namespace Grammar

open Reader

/-! ## What stands before an operand -/

/-- The lexemes after which an operand has to stand: an opening parenthesis and the operators. -/
def awaitsOperand : Lexeme → Bool
  | .symbol c => c = '(' || (Operator.ofSymbol? c).isSome
  | _ => false

/-- What comes next begins an operand: nothing has come yet, or an opening parenthesis or an
operator has come last. -/
def BeforeOperand (ls : List Lexeme) : Prop := ∀ l ∈ ls.getLast?, awaitsOperand l

/-- The lexeme is one of the two signs. -/
def IsSign (l : Lexeme) : Prop := l = .symbol '+' ∨ l = .symbol '-'

/-- There is a sign before an operand. -/
def HasSign (ls : List Lexeme) : Prop :=
  ∃ before l after, ls = before ++ l :: after ∧ IsSign l ∧ BeforeOperand before

theorem beforeOperand_concat {ls : List Lexeme} {l : Lexeme} :
    BeforeOperand (ls ++ [l]) ↔ awaitsOperand l := by
  simp [BeforeOperand]

theorem hasSign_concat {ls : List Lexeme} {l : Lexeme} :
    HasSign (ls ++ [l]) ↔ HasSign ls ∨ IsSign l ∧ BeforeOperand ls := by
  constructor
  · rintro ⟨before, l', after, hls, hsign, hbefore⟩
    rcases List.eq_nil_or_concat after with rfl | ⟨after, l'', rfl⟩
    · obtain ⟨rfl, hl⟩ := List.append_inj' hls rfl
      rw [← List.singleton_inj.1 hl] at hsign
      exact .inr ⟨hsign, hbefore⟩
    · rw [List.concat_eq_append, ← List.cons_append, ← List.append_assoc] at hls
      exact .inl ⟨before, l', after, (List.append_inj' hls rfl).1, hsign, hbefore⟩
  · rintro (⟨before, l', after, rfl, hsign, hbefore⟩ | ⟨hsign, hbefore⟩)
    · exact ⟨before, l', after ++ [l], by simp, hsign, hbefore⟩
    · exact ⟨ls, l, [], rfl, hsign, hbefore⟩

/-- The text has no letters, no points and no signs. -/
structure Restricted (text : String) : Prop where
  isExtra_eq : ∀ c ∈ text.toList, Token.isExtra c = false
  not_hasSign : ¬ HasSign (lexemes false text)

/-! ## Single tokens -/

variable {ctx : Context}

theorem exists_op_of_readLink {s s' : State} {before : Before} {last : Expr} {c : Char}
    (h : s.readLink before last c = .ok s') :
    ∃ op : Operator, op.symbol = c ∧
      s' = { s with place := .operand ((last, op) :: before) false } := by
  rw [State.readLink] at h
  split at h
  · rename_i op hop
    exact ⟨op, Operator.symbol_of_ofSymbol? hop, (Except.ok.inj h).symm⟩
  · cases h

theorem isExtra_symbol (op : Operator) : Token.isExtra op.symbol = false := by
  cases op <;> decide

/-- No reader takes a letter or a point that stands as a symbol. -/
theorem isExtra_of_read {s s' : State} {t : Token} {c : Char} (ht : t.lexeme = .symbol c)
    (h : s.read ctx t = .ok s') : Token.isExtra c = false := by
  by_contra hextra
  have hne : ∀ d, Token.isExtra d = false → c ≠ d := by
    rintro d hd rfl
    exact hextra hd
  have hopen := hne '(' (by decide)
  have hclose := hne ')' (by decide)
  have hcomma := hne ',' (by decide)
  have hlink : ∀ before last, s.readLink before last c ≠ .ok s' := by
    intro before last hread
    obtain ⟨op, rfl, -⟩ := exists_op_of_readLink hread
    exact hextra (isExtra_symbol op)
  rw [State.read] at h
  split at h
  · simp [State.readOperand, ht, State.reject, hopen, hne '+' (by decide), hne '-' (by decide)] at h
  · rw [State.readOperator, ht] at h
    dsimp only at h
    split at h
    · exact hlink _ _ h
    · simp only [hclose, hcomma, false_or, if_false] at h
      split at h <;> exact hlink _ _ h
  · simp [State.readOpening, ht, State.reject, hopen] at h

/-! ## The two readers -/

/-- On a token that is no sign before an operand, the two readers do the same. -/
theorem read_eq {s : State} {t : Token}
    (h : ∀ before negative, s.place = .operand before negative → ¬ IsSign t.lexeme) :
    s.read (ctx.withStrict true) t = s.read (ctx.withStrict false) t := by
  obtain ⟨place, outer, closings⟩ := s
  cases place with
  | operator | opening => rfl
  | operand before negative =>
    have hsign := h before negative rfl
    simp only [State.read, State.readOperand]
    split
    · rfl
    · rfl
    · rename_i c hl
      rw [hl, IsSign, not_or, Lexeme.symbol.injEq, Lexeme.symbol.injEq] at hsign
      simp only [hsign.1, hsign.2, false_and, if_false]
      rfl
    · rfl

/-- What has been read stands for a place: before an operand, or after one.  There are no calls in
it, so all chains around the place are those of groups. -/
inductive Stands : List Lexeme → State → Prop
  | operand {ls : List Lexeme} {before : Before} {negative : Bool} {outer : List Level}
      {closings : List Char} :
      BeforeOperand ls → (∀ level ∈ outer, level.opening = .group) →
      Stands ls ⟨.operand before negative, outer, closings⟩
  | operator {ls : List Lexeme} {before : Before} {last : Expr} {outer : List Level}
      {closings : List Char} :
      ¬ BeforeOperand ls → (∀ level ∈ outer, level.opening = .group) →
      Stands ls ⟨.operator before last, outer, closings⟩

theorem Stands.start : Stands [] start := .operand (by simp [BeforeOperand]) (by simp)

theorem Stands.readLink {ls : List Lexeme} {place : Place} {before : Before} {last : Expr}
    {outer : List Level} {closings : List Char} {c : Char} {s' : State}
    (houter : ∀ level ∈ outer, level.opening = .group)
    (h : State.readLink ⟨place, outer, closings⟩ before last c = .ok s') :
    Stands (ls ++ [.symbol c]) s' := by
  obtain ⟨op, rfl, rfl⟩ := exists_op_of_readLink h
  refine .operand (beforeOperand_concat.2 ?_) houter
  simp [awaitsOperand, Operator.ofSymbol?_symbol]

/-- **A token leads from a place to a place.** -/
theorem Stands.read {ls : List Lexeme} {s s' : State} {t : Token} (hs : Stands ls s)
    (hstrict : ctx.dialect.strict) (ht : ∀ word, t.lexeme ≠ .name word)
    (h : s.read ctx t = .ok s') : Stands (ls ++ [t.lexeme]) s' := by
  cases hs with
  | operand hls houter =>
    simp only [State.read, State.readOperand] at h
    split at h
    · rename_i word hl
      split at h
      · cases h
        rw [hl]
        exact .operator (by simp [beforeOperand_concat, awaitsOperand]) houter
      · cases h
    · rename_i word hl
      exact absurd hl (ht word)
    · rename_i c hl
      split at h
      · rename_i hc
        obtain ⟨-, rfl⟩ := enter_eq_ok h
        rw [hl, hc]
        refine .operand (beforeOperand_concat.2 rfl) fun level hlevel ↦ ?_
        rcases List.mem_cons.1 hlevel with rfl | hlevel
        · rfl
        · exact houter level hlevel
      · simp [hstrict, State.reject] at h
    · cases h
  | @operator before last outer closings hls houter =>
    simp only [State.read, State.readOperator] at h
    split at h
    · cases h
    · cases h
    · cases h
    · rename_i c hl
      rw [hl]
      cases outer with
      | nil => exact .readLink houter h
      | cons level outer =>
        dsimp only at h
        rw [houter level List.mem_cons_self] at h
        dsimp only at h
        split at h
        · rename_i hc
          cases h
          have hawaits : awaitsOperand (.symbol c) = false := by rw [hc]; decide
          exact .operator (by simp [beforeOperand_concat, hawaits])
            fun level' hlevel ↦ houter level' (List.mem_cons_of_mem level hlevel)
        · exact .readLink houter h

/-! ## Whole texts -/

/-- A token of a text that is read is taken by the reader. -/
theorem exists_read_of_run {s s' : State} {ts : List Token} {t : Token} (ht : t ∈ ts)
    (h : run ctx s ts = .ok s') : ∃ r r', State.read ctx r t = .ok r' := by
  obtain ⟨before, after, rfl⟩ := List.append_of_mem ht
  rw [run_append] at h
  cases hbefore : run ctx s before with
  | error stop => rw [hbefore] at h; cases h
  | ok r =>
    rw [hbefore] at h
    change run ctx r (t :: after) = _ at h
    rw [run_cons] at h
    cases hread : State.read ctx r t with
    | error stop => rw [hread] at h; cases h
    | ok r' => exact ⟨r, r', hread⟩

/-- Without signs before an operand, the two readers do the same. -/
theorem run_eq {ls : List Lexeme} {s : State} {ts : List Token} (hs : Stands ls s)
    (hts : ∀ t ∈ ts, ∀ word, t.lexeme ≠ .name word)
    (hsign : ¬ HasSign (ls ++ ts.map Token.lexeme)) :
    run (ctx.withStrict true) s ts = run (ctx.withStrict false) s ts := by
  induction ts generalizing ls s with
  | nil => rfl
  | cons t ts ih =>
    have hread : s.read (ctx.withStrict true) t = s.read (ctx.withStrict false) t := by
      refine read_eq fun before negative hplace hl ↦ hsign ⟨ls, t.lexeme, _, rfl, hl, ?_⟩
      cases hs with
      | operand hls => exact hls
      | operator => cases hplace
    rw [run_cons, run_cons, ← hread]
    cases hs' : s.read (ctx.withStrict true) t with
    | error stop => rfl
    | ok s' =>
      refine ih (hs.read rfl (hts t List.mem_cons_self) hs')
        (fun t' ht' ↦ hts t' (List.mem_cons_of_mem t ht')) ?_
      rwa [List.append_assoc, List.singleton_append, ← List.map_cons]

theorem not_read_sign {ls : List Lexeme} {s s' : State} {t : Token} (hs : Stands ls s)
    (hstrict : ctx.dialect.strict) (hsign : IsSign t.lexeme) (hls : BeforeOperand ls) :
    s.read ctx t ≠ .ok s' := by
  cases hs with
  | operand =>
    rcases hsign with hl | hl <;>
      simp [State.read, State.readOperand, State.reject, hl, hstrict]
  | operator hnot => exact absurd hls hnot

/-- What the strict reader takes has no signs before an operand. -/
theorem not_hasSign_of_run {ls : List Lexeme} {s s' : State} {ts : List Token} (hs : Stands ls s)
    (hstrict : ctx.dialect.strict) (hts : ∀ t ∈ ts, ∀ word, t.lexeme ≠ .name word)
    (hls : ¬ HasSign ls) (h : run ctx s ts = .ok s') : ¬ HasSign (ls ++ ts.map Token.lexeme) := by
  induction ts generalizing ls s with
  | nil => simpa using hls
  | cons t ts ih =>
    rw [run_cons] at h
    cases hread : s.read ctx t with
    | error stop => rw [hread] at h; cases h
    | ok s'' =>
      rw [hread] at h
      have hs'' := hs.read hstrict (hts t List.mem_cons_self) hread
      have hnot : ¬ HasSign (ls ++ [t.lexeme]) := by
        rw [hasSign_concat, not_or]
        refine ⟨hls, fun ⟨hsign, hbefore⟩ ↦ ?_⟩
        exact not_read_sign hs hstrict hsign hbefore hread
      have h := ih hs'' (fun t' ht' ↦ hts t' (List.mem_cons_of_mem t ht')) hnot h
      rwa [List.append_assoc, List.singleton_append, ← List.map_cons] at h

/-- In the strict language there are no names. -/
theorem lexeme_ne_name {text : String} :
    ∀ t ∈ (Token.ofText true text).dropLast, ∀ word, t.lexeme ≠ .name word := by
  intro t ht word hl
  have hadmissible := admissible_lexemes true text t ht
  rw [hl] at hadmissible
  cases hadmissible

theorem not_isDigit_of_isExtra {c : Char} (h : Token.isExtra c) : ¬ c.isDigit := by
  intro hdigit
  rcases Bool.or_eq_true_iff.1 h with halpha | hpoint
  · exact not_isAlpha_of_isDigit hdigit halpha
  · rw [of_decide_eq_true hpoint] at hdigit
    cases hdigit

/-- A letter or a point is a symbol of its own in the strict language. -/
theorem exists_symbol_of_isExtra {text : String} {c : Char} (hc : c ∈ text.toList)
    (h : Token.isExtra c) : ∃ t ∈ (Token.ofText true text).dropLast, t.lexeme = .symbol c := by
  have hword : Token.isWordChar false c := by
    rw [Token.isExtra] at h
    simp [Token.isWordChar, h]
  obtain ⟨t, ht, hct⟩ := exists_mem_lexemes true hc (isGap_of_isWordChar hword)
  refine ⟨t, ht, ?_⟩
  have hadmissible := admissible_lexemes true text t ht
  cases hl : t.lexeme with
  | number word =>
    rw [hl] at hadmissible hct
    exact absurd (hadmissible rfl c hct) (not_isDigit_of_isExtra h)
  | name word => exact absurd hl (lexeme_ne_name t ht word)
  | symbol d =>
    rw [hl] at hct
    rw [List.mem_singleton.1 hct]
  | finish => rw [hl] at hct; cases hct

/-- **What the strict reader takes has no letters, no points and no signs.** -/
theorem restricted_of_parseRaw {text : String} {e : Expr}
    (h : (Parser.parseRaw (ctx.withStrict true) text).value = .ok (some e)) : Restricted text := by
  obtain ⟨-, s, hrun, -⟩ := run_of_readTokens (readTokens_of_parseRaw h).2
  have hextra : ∀ c ∈ text.toList, Token.isExtra c = false := by
    intro c hc
    by_contra hextra
    obtain ⟨t, ht, hl⟩ := exists_symbol_of_isExtra hc (by simpa using hextra)
    obtain ⟨r, r', hread⟩ := exists_read_of_run ht hrun
    exact hextra (isExtra_of_read hl hread)
  refine ⟨hextra, ?_⟩
  have hnot := not_hasSign_of_run .start rfl lexeme_ne_name (by simp [HasSign]) hrun
  rw [lexemes, ← Token.ofText_eq hextra]
  exact hnot

/-- The outcome for a text depends on its tokens and on how these are read. -/
theorem parseRaw_congr {ctx ctx' : Context} {text : String}
    (hlength : ctx.dialect.maxLength = ctx'.dialect.maxLength)
    (htokens : Token.ofText ctx.dialect.strict text = Token.ofText ctx'.dialect.strict text)
    (hread : Parser.readTokens ctx (Token.ofText ctx'.dialect.strict text).dropLast =
      Parser.readTokens ctx' (Token.ofText ctx'.dialect.strict text).dropLast) :
    Parser.parseRaw ctx text = Parser.parseRaw ctx' text := by
  rw [Parser.parseRaw, Parser.parseRaw, hlength, htokens]
  generalize (Token.ofText ctx'.dialect.strict text).dropLast = ts at hread
  split
  · rfl
  · cases ts with
    | nil => rfl
    | cons t ts => exact congrArg (Log.Logged.map (Except.map some)) hread

/-- **A text without letters, points and signs is read in the same way in both languages.** -/
theorem parseRaw_eq {text : String} (h : Restricted text) :
    Parser.parseRaw (ctx.withStrict true) text = Parser.parseRaw (ctx.withStrict false) text := by
  have htokens := Token.ofText_eq h.isExtra_eq
  have hrun : run (ctx.withStrict true) start (Token.ofText false text).dropLast =
      run (ctx.withStrict false) start (Token.ofText false text).dropLast := by
    rw [← htokens]
    refine run_eq .start lexeme_ne_name ?_
    rw [htokens]
    exact h.not_hasSign
  refine parseRaw_congr rfl htokens ?_
  change Parser.readTokens _ (Token.ofText false text).dropLast =
    Parser.readTokens _ (Token.ofText false text).dropLast
  rw [Parser.readTokens, Parser.readTokens, hrun]
  rfl

/-- **The strict language is the full one without letters, points and signs.**  The strict reader
gives an expression exactly if the full one gives the same expression and the text has no letter, no
point and no sign at its beginning, after an operator or after an opening parenthesis.  In both
languages there is no expression, and no complaint, exactly for the texts of gaps within the limit
for texts. -/
theorem parseRaw_strict_iff (ctx : Context) (text : String) :
    (∀ e : Expr, (Parser.parseRaw (ctx.withStrict true) text).value = .ok (some e) ↔
      (Parser.parseRaw (ctx.withStrict false) text).value = .ok (some e) ∧ Restricted text) ∧
    ∀ strict : Bool, (Parser.parseRaw (ctx.withStrict strict) text).value = .ok none ↔
      (text.length : Int) ≤ ctx.dialect.maxLength ∧ ∀ c ∈ text.toList, Token.isGap c := by
  refine ⟨fun e ↦ ⟨fun h ↦ ?_, fun ⟨h, hrestricted⟩ ↦ ?_⟩, fun strict ↦ ?_⟩
  · have hrestricted := restricted_of_parseRaw h
    rw [parseRaw_eq hrestricted] at h
    exact ⟨h, hrestricted⟩
  · rwa [parseRaw_eq hrestricted]
  · exact parseRaw_eq_none_iff.trans (and_congr_right fun _ ↦ lexemes_eq_nil_iff)

/-- `1 - 2` as it is written. -/
def oneMinusTwo : Expr :=
  .chain false (signedNumber false (.finite false 1 0))
    [(.minus, signedNumber false (.finite false 2 0))]

/-- The minus sign of a difference is an operator, and that of a negative number is none. -/
theorem parseRaw_strict_iff_oneMinusTwo :
    (Parser.parseRaw (standardContext.withStrict true) "1 - 2").value = .ok (some oneMinusTwo) ∧
      (Parser.parseRaw (standardContext.withStrict false) "1 - 2").value = .ok (some oneMinusTwo) ∧
      Restricted "1 - 2" ∧
      ∀ e, (Parser.parseRaw (standardContext.withStrict true) "1 - -2").value ≠ .ok (some e) := by
  have hlexemes : lexemes true "1 - 2" =
      [Lexeme.number ['1']] ++ Lexeme.symbol '-' :: [Lexeme.number ['2']] := by
    decide +kernel
  have hspells : Spells (standardContext.withStrict true) 0 (lexemes true "1 - 2") oneMinusTwo := by
    rw [hlexemes]
    exact ⟨_, _, .link .minus (.single (.digit (by decide) 0 (show 1 < 10 by decide)))
      (.digit (by decide) 0 (show 2 < 10 by decide)), rfl⟩
  have hread : (Parser.parseRaw (standardContext.withStrict true) "1 - 2").value =
      .ok (some oneMinusTwo) := by
    obtain h | ⟨hdeep, -⟩ := hspells.parseRaw (by decide) (by decide)
    · exact h
    · exact absurd (Host.follows_framed (by decide)) hdeep
  obtain ⟨hfull, hrestricted⟩ :=
    ((parseRaw_strict_iff standardContext "1 - 2").1 oneMinusTwo).1 hread
  refine ⟨hread, hfull, hrestricted, fun e h ↦ ?_⟩
  have hsign : lexemes false "1 - -2" =
      [.number ['1'], .symbol '-'] ++ .symbol '-' :: [.number ['2']] := by
    decide +kernel
  have hbefore : BeforeOperand ([.number ['1']] ++ [.symbol '-']) := beforeOperand_concat.2 rfl
  have hnot := (((parseRaw_strict_iff standardContext "1 - -2").1 e).1 h).2.not_hasSign
  exact hnot ⟨_, _, _, hsign, .inr rfl, hbefore⟩

/-- A text of spaces. -/
def spaces (n : Nat) : String := String.ofList (List.replicate n ' ')

/-- Having no tokens is not enough to be read as nothing: the length is looked at first. -/
theorem not_none_spaces :
    lexemes true (spaces 10001) = [] ∧
      (Parser.parseRaw (standardContext.withStrict true) (spaces 10001)).value =
        .error (.rejected (.tooLong 10000)) ∧
      (Parser.parseRaw (standardContext.withStrict true) (spaces 10001)).value ≠ .ok none := by
  have hchars : (spaces 10001).toList = List.replicate 10001 ' ' := String.toList_ofList
  have hlength : (spaces 10001).length = 10001 := by
    rw [← String.length_toList, hchars, List.length_replicate]
  have hlong : (standardContext.withStrict true).dialect.maxLength < (spaces 10001).length := by
    rw [hlength]
    decide
  refine ⟨lexemes_eq_nil_iff.2 fun c hc ↦ ?_, parseRaw_tooLong hlong, ?_⟩
  · rw [hchars] at hc
    rw [(List.mem_replicate.1 hc).2]
    decide
  · rw [parseRaw_tooLong hlong]
    simp

end Grammar

end Formula
