import Formula.Proofs.Grammar.Complaints
import Formula.Proofs.Grammar.Reading
import Formula.Proofs.Rendering.Fragment

/-!
# Texts that go on

Somebody who types an expression sees the complaint about what is there so far.  It tells whether
more is needed, or whether something is wrong that nothing that follows can put right.

Both halves are about texts that are the beginning of another one.  A text that goes on with a gap,
or with anything else that no word runs into, has the tokens of the beginning and then others
(`Token.scan_append`), so a reading of the whole comes through every state that a reading of the
beginning comes through.

* A complaint about a token is made when the token is read, and never says that something is still
  to come.  It is made again, whatever follows.
* The others are made at the end, about the state that has been reached.  Any such state can be
  completed without opening anything: an operand if one has to follow, and then, for each group, a
  parenthesis, and for each call, the arguments that are missing and a parenthesis (`completion`).

`parseRaw_append` is the main result.
-/

set_option autoImplicit false

namespace Formula

/-! ## Tokens of a longer text -/

/-- A longest run of characters ends where it ended before, if what is added does not go on with
it. -/
theorem takeWhile_dropWhile_append {p : Char → Bool} (cs : List Char) {rest : List Char}
    (hrest : ∀ d ∈ rest.head?, p d = false) :
    (cs ++ rest).takeWhile p = cs.takeWhile p ∧
      (cs ++ rest).dropWhile p = cs.dropWhile p ++ rest := by
  induction cs with
  | nil =>
    cases rest with
    | nil => simp
    | cons d rest => simp [hrest d rfl]
  | cons c cs ih =>
    rw [List.cons_append, List.takeWhile_cons, List.takeWhile_cons, List.dropWhile_cons,
      List.dropWhile_cons, ih.1, ih.2]
    split <;> simp

/-- A text and its continuation are read one after the other, if no word of the text runs into the
continuation. -/
theorem Token.scan_append (strict : Bool) (position : Nat) (cs : List Char) {rest : List Char}
    (hrest : ∀ d ∈ rest.head?, isWordChar strict d = false) :
    scan strict position (cs ++ rest) =
      (scan strict position cs).dropLast ++ scan strict (position + cs.length) rest := by
  fun_induction scan strict position cs with
  | case1 position => rfl
  | case2 position c cs hgap ih =>
    rw [List.cons_append, scan, if_pos hgap, ih, List.length_cons, Nat.add_right_comm,
      Nat.add_assoc]
  | case3 position c cs hgap hword word ih =>
    obtain ⟨htake, hdrop⟩ := takeWhile_dropWhile_append cs hrest
    have hlength : word.length + (cs.dropWhile (isWordChar strict)).length = cs.length := by
      rw [← List.length_append, List.takeWhile_append_dropWhile]
    have hposition : position + 1 + word.length + (cs.dropWhile (isWordChar strict)).length =
        position + (c :: cs).length := by
      rw [List.length_cons]
      omega
    rw [List.cons_append, scan, if_neg hgap, if_pos hword, htake, hdrop]
    dsimp only
    rw [ih, List.dropLast_cons_of_ne_nil (scan_ne_nil _ _ _), List.cons_append, hposition]
  | case4 position c cs hgap hword ih =>
    rw [List.cons_append, scan, if_neg hgap, if_neg hword, ih,
      List.dropLast_cons_of_ne_nil (scan_ne_nil _ _ _), List.cons_append, List.length_cons,
      Nat.add_right_comm, Nat.add_assoc]

/-! ## Completions -/

namespace Reader

variable {ctx : Context}

/-- What closes everything that is open, the innermost level first: a parenthesis for a group, and
for a call the arguments that come after the one that is being read, and a parenthesis. -/
def completion : List Level → List Char
  | [] => []
  | ⟨_, _, .group⟩ :: outer => ')' :: completion outer
  | ⟨_, _, .call f arguments⟩ :: outer =>
    (List.replicate (f.arity.count - (arguments.length + 1)) [',', '1']).flatten ++
      ')' :: completion outer

/-- What is still to come after a state, in the shortest way. -/
def State.missing (s : State) : List Char :=
  match s.place with
  | .operator _ _ => completion s.outer
  | _ => '1' :: completion s.outer

/-- A character as a lexeme of its own. -/
def lexemeOf (c : Char) : Lexeme := if c = '1' then .number ['1'] else .symbol c

theorem reads_one (hbound : 0 ≤ ctx.dialect.maxLiteralExponent) (outer : List Level)
    (before : Before) (negative : Bool) :
    ∃ last, Grammar.Reads ctx False [.number ['1']] (.operand before negative) outer
      (.operator before last) outer :=
  ⟨_, (Grammar.Literal.digit hbound (show 1 < 10 by decide)).reads before negative⟩

/-- The arguments that are missing. -/
theorem reads_missing (hbound : 0 ≤ ctx.dialect.maxLiteralExponent) (outer : List Level)
    (before : Before) (negative : Bool) (f : Declaration) (n : Nat) (inner : Before) (last : Expr)
    (args : List Expr) (hn : f.arity.count - (args.length + 1) = n) :
    ∃ inner' last' args', f.arity.count ≤ args'.length + 1 ∧
      Grammar.Reads ctx False ((List.replicate n [',', '1']).flatten.map lexemeOf)
        (.operator inner last) (⟨before, negative, .call f args⟩ :: outer)
        (.operator inner' last') (⟨before, negative, .call f args'⟩ :: outer) := by
  induction n generalizing inner last args with
  | zero => exact ⟨inner, last, args, by omega, .nil⟩
  | succ n ih =>
    have hcomma : Grammar.Reads ctx False [.symbol ','] (.operator inner last)
        (⟨before, negative, .call f args⟩ :: outer) (.operand [] false)
        (⟨before, negative, .call f (argument inner last :: args)⟩ :: outer) :=
      Grammar.reads_comma (by omega)
    obtain ⟨next, hnext⟩ := reads_one hbound
      (⟨before, negative, .call f (argument inner last :: args)⟩ :: outer) [] false
    obtain ⟨inner', last', args', hcount, hrest⟩ := ih [] next (argument inner last :: args)
      (by rw [List.length_cons]; omega)
    exact ⟨inner', last', args', hcount, hcomma.append (hnext.append hrest)⟩

/-- **Everything that is open can be closed.** -/
theorem reads_completion (hbound : 0 ≤ ctx.dialect.maxLiteralExponent) (outer : List Level)
    (inner : Before) (last : Expr) :
    ∃ inner' last', Grammar.Reads ctx False ((completion outer).map lexemeOf) (.operator inner last)
      outer (.operator inner' last') [] := by
  induction outer generalizing inner last with
  | nil => exact ⟨inner, last, .nil⟩
  | cons level outer ih =>
    obtain ⟨before, negative, opening⟩ := level
    cases opening with
    | group =>
      obtain ⟨inner', last', hrest⟩ := ih before (Grammar.signed negative (close inner last))
      exact ⟨inner', last',
        (Grammar.reads_closeGroup ctx False outer before inner negative last).append hrest⟩
    | call f args =>
      obtain ⟨inner₁, last₁, args₁, hcount, hmissing⟩ :=
        reads_missing hbound outer before negative f _ inner last args rfl
      obtain ⟨inner', last', hrest⟩ := ih before
        (Grammar.signed negative (f.call (argument inner₁ last₁ :: args₁).reverse))
      have hclose :=
        Grammar.reads_closeCall ctx False outer before inner₁ negative last₁ hcount
      refine ⟨inner', last', ?_⟩
      rw [completion, List.map_append]
      exact hmissing.append (hclose.append hrest)

/-- **Every state can be completed**, unless the name of a function stands alone. -/
theorem exists_run_missing (hbound : 0 ≤ ctx.dialect.maxLiteralExponent) {s : State}
    (hplace : ∀ before negative f, s.place ≠ .opening before negative f) {ts : List Token}
    (hts : ts.map Token.lexeme = s.missing.map lexemeOf) :
    ∃ s' e, run ctx s ts = .ok s' ∧ s'.finish = .ok e := by
  have hreads : ∃ inner last, Grammar.Reads ctx False (s.missing.map lexemeOf) s.place s.outer
      (.operator inner last) [] := by
    obtain ⟨place, outer, closings⟩ := s
    cases place with
    | opening before negative f => exact absurd rfl (hplace before negative f)
    | operator before last => exact reads_completion hbound outer before last
    | operand before negative =>
      obtain ⟨last, hone⟩ := reads_one hbound outer before negative
      obtain ⟨inner', last', hrest⟩ := reads_completion hbound outer before last
      exact ⟨inner', last', hone.append hrest⟩
  obtain ⟨inner, last, hreads⟩ := hreads
  obtain ⟨closings, hrun⟩ | ⟨hdeep, -⟩ := hreads ts hts s.closings
  · exact ⟨_, close inner last, hrun, rfl⟩
  · exact hdeep.elim

/-! The completion as a text, with a space after every lexeme. -/

theorem mem_completion (outer : List Level) : ∀ c ∈ completion outer, c ∈ ['1', ',', ')'] := by
  induction outer with
  | nil => simp [completion]
  | cons level outer ih =>
    obtain ⟨before, negative, opening⟩ := level
    intro c hc
    cases opening with
    | group =>
      rcases List.mem_cons.1 hc with rfl | hc
      · simp
      · exact ih c hc
    | call f args =>
      rcases List.mem_append.1 hc with hc | hc
      · obtain ⟨l, hl, hcl⟩ := List.mem_flatten.1 hc
        rw [List.eq_of_mem_replicate hl] at hcl
        revert hcl
        simp only [List.mem_cons, List.not_mem_nil, or_false]
        tauto
      · rcases List.mem_cons.1 hc with rfl | hc
        · simp
        · exact ih c hc

theorem State.mem_missing (s : State) : ∀ c ∈ s.missing, c ∈ ['1', ',', ')'] := by
  obtain ⟨place, outer, closings⟩ := s
  cases place with
  | operator before last => exact mem_completion outer
  | operand before negative | opening before negative f =>
    intro c hc
    rcases List.mem_cons.1 hc with rfl | hc
    · simp
    · exact mem_completion outer c hc

theorem lex_spaced (strict : Bool) {cs : List Char} (hcs : ∀ c ∈ cs, c ∈ ['1', ',', ')']) :
    Grammar.lex strict (cs.flatMap fun c ↦ [c, ' ']) = cs.map lexemeOf ++ [.finish] := by
  have hspace : Token.isGap ' ' = true ∧ Token.isWordChar strict ' ' = false := by
    cases strict <;> decide
  have hsymbol : ∀ c ∈ [',', ')'], Token.isGap c = false ∧ Token.isWordChar strict c = false ∧
      lexemeOf c = .symbol c := by
    cases strict <;> simp <;> decide
  have hone : ∀ d ∈ ['1'], Token.isWordChar strict d = true := by
    cases strict <;> simp <;> decide
  induction cs with
  | nil => exact Grammar.lex_nil
  | cons c cs ih =>
    have ih := ih fun d hd ↦ hcs d (List.mem_cons_of_mem c hd)
    rw [List.flatMap_cons, List.map_cons]
    rcases List.mem_cons.1 (hcs c List.mem_cons_self) with rfl | hc
    · have hrest : ∀ d ∈ (' ' :: cs.flatMap fun c ↦ [c, ' ']).head?,
          Token.isWordChar strict d = false := by
        rintro _ ⟨rfl⟩
        exact hspace.2
      have hword := Grammar.lex_word hone hrest
      rw [Grammar.lex_gap hspace.1, ih] at hword
      exact hword
    · obtain ⟨hgap, hword, hlexeme⟩ := hsymbol c hc
      rw [List.cons_append, List.cons_append, List.nil_append, Grammar.lex_symbol hgap hword,
        Grammar.lex_gap hspace.1, ih, hlexeme, List.cons_append]

/-- The same context, but for the number of characters that a text may have. -/
def Context.withMaxLength (ctx : Context) (limit : Int) : Context :=
  { ctx with dialect := { ctx.dialect with maxLength := limit } }

end Reader

namespace Parser

open Reader

variable {ctx : Context}

/-- A text is rejected for its length, or its tokens are rejected. -/
theorem parseRaw_rejected {text : String} {e : ParseError}
    (h : (parseRaw ctx text).value = .error (.rejected e)) :
    e = .tooLong ctx.dialect.maxLength ∨
      (Token.ofText ctx.dialect.strict text).dropLast ≠ [] ∧
        (readTokens ctx (Token.ofText ctx.dialect.strict text).dropLast).value =
          .error (.rejected e) := by
  rcases lt_or_ge ctx.dialect.maxLength text.length with hlength | hlength
  · rw [Grammar.parseRaw_tooLong hlength] at h
    cases h
    exact .inl rfl
  · refine .inr ?_
    by_cases hnil : (Token.ofText ctx.dialect.strict text).dropLast = []
    · rw [Grammar.parseRaw_eq_none_iff.2 ⟨hlength, by rw [Grammar.lexemes, hnil]; rfl⟩] at h
      cases h
    · rw [Grammar.parseRaw_value hlength hnil] at h
      refine ⟨hnil, ?_⟩
      cases hread : (readTokens ctx (Token.ofText ctx.dialect.strict text).dropLast).value with
      | ok e' => rw [hread] at h; cases h
      | error u => rw [hread] at h; cases h; rfl

/-- The tokens of a longer text, without the end. -/
theorem dropLast_ofText_append (strict : Bool) (text : String) {v : String}
    (hv : ∀ c ∈ v.toList.head?, Token.isWordChar strict c = false) :
    (Token.ofText strict (text ++ v)).dropLast =
      (Token.ofText strict text).dropLast ++
        (Token.scan strict text.toList.length v.toList).dropLast := by
  rw [Token.ofText, String.toList_append, Token.scan_append strict 0 _ hv, Nat.zero_add,
    List.dropLast_append_of_ne_nil (Token.scan_ne_nil _ _ _)]
  rfl

/-- A longer text is read on from where the text ends. -/
theorem parseRaw_append_value {text v : String}
    (hne : (Token.ofText ctx.dialect.strict text).dropLast ≠ [])
    (hv : ∀ c ∈ v.toList.head?, Token.isWordChar ctx.dialect.strict c = false) {limit : Int}
    (hlength : ((text ++ v).length : Int) ≤ limit) :
    (parseRaw (ctx.withMaxLength limit) (text ++ v)).value =
      (readTokens ctx ((Token.ofText ctx.dialect.strict text).dropLast ++
        (Token.scan ctx.dialect.strict text.toList.length v.toList).dropLast)).value.map some := by
  have htokens := dropLast_ofText_append ctx.dialect.strict text hv
  have hne' : (Token.ofText ctx.dialect.strict (text ++ v)).dropLast ≠ [] := by
    rw [htokens]
    exact List.append_ne_nil_of_left_ne_nil hne _
  rw [← htokens]
  -- whoever reads the tokens does not look at the limit for the length
  exact @Grammar.parseRaw_value (ctx.withMaxLength limit) _ hlength hne'

/-- What is wrong with a text is wrong with every longer one. -/
theorem parseRaw_append_of_isDefinite {text v : String} {e : ParseError}
    (h : (parseRaw ctx text).value = .error (.rejected e)) (he : e.isDefinite)
    (hv : ∀ c ∈ v.toList.head?, Token.isWordChar ctx.dialect.strict c = false) {limit : Int}
    (hlength : ((text ++ v).length : Int) ≤ limit) :
    (parseRaw (ctx.withMaxLength limit) (text ++ v)).value = .error (.rejected e) := by
  obtain rfl | ⟨hne, hread⟩ := parseRaw_rejected h
  · cases he
  rw [parseRaw_append_value hne hv hlength]
  rcases lt_or_ge ctx.dialect.maxDepth 0 with hdepth | hdepth
  · rw [value_readTokens_of_neg hdepth] at hread ⊢
    exact congrArg _ hread
  rw [value_readTokens hdepth] at hread ⊢
  obtain ⟨closings, hrun⟩ | ⟨s, closings, hrun, hfinish⟩ := outcome_rejected hread
  · rw [outcome, run_append, hrun]
    rfl
  · -- at the end of a text, nothing of this kind is said
    obtain ⟨e', hcause, ⟨hpremature, -⟩ | ⟨f, rfl⟩⟩ := exists_finish_eq hfinish
    · cases hcause
      rw [ParseError.isDefinite_of_isPremature hpremature] at he
      cases he
    · cases hcause
      cases he

/-- What is still to come can come. -/
theorem exists_parseRaw_append (hbound : 0 ≤ ctx.dialect.maxLiteralExponent) {text : String}
    {e : ParseError} (h : (parseRaw ctx text).value = .error (.rejected e))
    (he : e.isPremature) :
    ∃ v : String, ∀ limit : Int, ((text ++ (" " ++ v)).length : Int) ≤ limit →
      ∃ e', (parseRaw (ctx.withMaxLength limit) (text ++ (" " ++ v))).value = .ok (some e') := by
  obtain rfl | ⟨hne, hread⟩ := parseRaw_rejected h
  · cases he
  rcases lt_or_ge ctx.dialect.maxDepth 0 with hdepth | hdepth
  · rw [value_readTokens_of_neg hdepth] at hread
    cases hread
    cases he
  rw [value_readTokens hdepth] at hread
  obtain ⟨closings, hrun⟩ | ⟨s, closings, hrun, hfinish⟩ := outcome_rejected hread
  · rw [(firm_run ctx start _ closings e hrun).1] at he
    cases he
  obtain ⟨e', hcause, ⟨-, hplace⟩ | ⟨f, rfl⟩⟩ := exists_finish_eq hfinish
  · have hspace : Token.isGap ' ' = true ∧ Token.isWordChar ctx.dialect.strict ' ' = false := by
      cases ctx.dialect.strict <;> decide
    have htext : (" " ++ String.ofList (s.missing.flatMap fun c ↦ [c, ' '])).toList =
        ' ' :: s.missing.flatMap fun c ↦ [c, ' '] := by
      rw [String.toList_append, String.toList_ofList, String.toList_ofList, List.singleton_append]
    have hv : ∀ c ∈ (" " ++ String.ofList (s.missing.flatMap fun c ↦ [c, ' '])).toList.head?,
        Token.isWordChar ctx.dialect.strict c = false := by
      rw [htext]
      rintro _ ⟨rfl⟩
      exact hspace.2
    refine ⟨String.ofList (s.missing.flatMap fun c ↦ [c, ' ']), fun limit hlength ↦ ?_⟩
    rw [parseRaw_append_value hne hv hlength, value_readTokens hdepth, htext]
    have hlexemes : (Token.scan ctx.dialect.strict text.toList.length
        (' ' :: s.missing.flatMap fun c ↦ [c, ' '])).dropLast.map Token.lexeme =
          s.missing.map lexemeOf := by
      rw [List.map_dropLast, Grammar.map_lexeme_scan, Grammar.lex_gap hspace.1,
        lex_spaced _ s.mem_missing, List.dropLast_concat]
    obtain ⟨s', e'', hrun', hfinish'⟩ := exists_run_missing hbound hplace hlexemes
    refine ⟨e'', ?_⟩
    rw [outcome, run_append, hrun]
    dsimp only [Except.bind]
    rw [hrun']
    dsimp only
    rw [hfinish']
    rfl
  · cases hcause
    cases he

/-- **The code of an error tells what is incomplete from what is wrong.**  Let a text be rejected.

If the code is that of an empty expression, of an operator at the end, or of a parenthesis, and in
the last case the wording is that of a closing parenthesis, then the text can be completed: with a
space and a suitable continuation it is an expression, as far as its length is not against it.

If the code is one of those for something wrong, then every continuation is rejected, and with the
same error, unless the whole is too long.  A continuation is anything that does not go on with the
last word of the text: whatever begins with white space is one. -/
theorem parseRaw_append (hbound : 0 ≤ ctx.dialect.maxLiteralExponent) {text : String}
    {e : ParseError} (h : (parseRaw ctx text).value = .error (.rejected e)) :
    ((e.code = "EMPTY" ∨ e.code = "TRAILING_OPERATOR" ∨
        e.code = "MISSING_PARENTHESIS" ∧ e.message = "Missing closing parenthesis") →
      ∃ v : String, ∀ limit : Int, ((text ++ (" " ++ v)).length : Int) ≤ limit →
        ∃ e', (parseRaw (ctx.withMaxLength limit) (text ++ (" " ++ v))).value = .ok (some e')) ∧
    (e.code ∈ ParseError.definiteCodes → ∀ v : String,
      (∀ c ∈ v.toList.head?, Token.isWordChar ctx.dialect.strict c = false) → ∀ limit : Int,
        (∀ r, (parseRaw (ctx.withMaxLength limit) (text ++ v)).value ≠ .ok r) ∧
        (((text ++ v).length : Int) ≤ limit →
          (parseRaw (ctx.withMaxLength limit) (text ++ v)).value = .error (.rejected e))) := by
  refine ⟨fun he ↦ exists_parseRaw_append hbound h (e.isPremature_iff.2 he),
    fun he v hv limit ↦ ?_⟩
  have hsame : ((text ++ v).length : Int) ≤ limit →
      (parseRaw (ctx.withMaxLength limit) (text ++ v)).value = .error (.rejected e) :=
    parseRaw_append_of_isDefinite h (e.isDefinite_iff.2 he) hv
  refine ⟨fun r hr ↦ ?_, hsame⟩
  rcases lt_or_ge limit ((text ++ v).length : Int) with hlength | hlength
  · rw [@Grammar.parseRaw_tooLong (ctx.withMaxLength limit) _ hlength] at hr
    cases hr
  · rw [hsame hlength] at hr
    cases hr

/-- The error with which a text is rejected. -/
def error? : Except Unreadable (Option Expr) → Option ParseError
  | .error (.rejected e) => some e
  | _ => none

theorem eq_of_error? {r : Except Unreadable (Option Expr)} {e : ParseError}
    (h : error? r = some e) : r = .error (.rejected e) := by
  rcases r with (e' | f) | r <;> cases h
  rfl

/-- `If(1, (2 +` can be completed, and `If(1, 2) + 3` cannot. -/
theorem parseRaw_append_openCall :
    (parseRaw Grammar.standardContext "If(1, (2 +").value = .error (.rejected .missingClosing) ∧
      (∃ v : String, ∀ limit : Int, (("If(1, (2 +" ++ (" " ++ v)).length : Int) ≤ limit →
        ∃ e', (parseRaw (Grammar.standardContext.withMaxLength limit)
          ("If(1, (2 +" ++ (" " ++ v))).value = .ok (some e')) ∧
      (parseRaw Grammar.standardContext "If(1, 2) + 3").value =
        .error (.rejected (.arityMismatch "if" ⟨3, .whole⟩)) ∧
      ∀ v : String, (∀ c ∈ v.toList.head?, Token.isWordChar false c = false) → ∀ limit : Int,
        (∀ r, (parseRaw (Grammar.standardContext.withMaxLength limit)
          ("If(1, 2) + 3" ++ v)).value ≠ .ok r) ∧
        ((("If(1, 2) + 3" ++ v).length : Int) ≤ limit →
          (parseRaw (Grammar.standardContext.withMaxLength limit) ("If(1, 2) + 3" ++ v)).value =
            .error (.rejected (.arityMismatch "if" ⟨3, .whole⟩))) := by
  have hopen : (parseRaw Grammar.standardContext "If(1, (2 +").value =
      .error (.rejected .missingClosing) := eq_of_error? (by decide +kernel)
  have hcount : (parseRaw Grammar.standardContext "If(1, 2) + 3").value =
      .error (.rejected (.arityMismatch "if" ⟨3, .whole⟩)) := eq_of_error? (by decide +kernel)
  have hbound : 0 ≤ Grammar.standardContext.dialect.maxLiteralExponent := by decide
  exact ⟨hopen, (parseRaw_append hbound hopen).1 (.inr (.inr (by decide +kernel))), hcount,
    (parseRaw_append hbound hcount).2 (by decide +kernel)⟩

end Parser

end Formula
