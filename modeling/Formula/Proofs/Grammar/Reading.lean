import Formula.Function.Builtin
import Formula.Proofs.Grammar.Derivation
import Formula.Proofs.Grammar.Lexemes
import Formula.Settings

/-!
# What is read is what the grammar derives

Every state of the reader has an explanation: the lexemes that it has read fall into the parts that
its levels have already taken, each of them spelled as the grammar says.  `Explains` is this
invariant.  It holds before the first token (`Explains.start`), a token keeps it (`Explains.read`),
and so it holds after every list of tokens (`Explains.run`).  At the end of the text it is a
derivation.

Together with the other direction (`Formula.Proofs.Grammar.Derivation`) this is the main result:
`parseRaw_eq_some_iff` — a text has an expression exactly if the grammar derives its lexemes, and
the expression is the only one that they spell.
-/

set_option autoImplicit false

namespace Formula.Grammar

open Reader

variable (ctx : Context)

/-! ## Parts of a derivation -/

/-- `(Operand op)*`, the part of a chain that stands before an operand. -/
inductive Begun : Nat → List Lexeme → Before → Prop
  | nil {n : Nat} : Begun n [] []
  | link {n : Nat} {ls ms : List Lexeme} {before : Before} {e : Expr} (op : Operator) :
      Begun n ls before → Operand ctx n ms e →
      Begun n (ls ++ ms ++ [.symbol op.symbol]) ((e, op) :: before)

/-- `(Chain ,)*`, the arguments of a call that stand before another one, in reverse. -/
inductive Given : Nat → List Lexeme → List Expr → Prop
  | nil {n : Nat} : Given n [] []
  | next {n : Nat} {ls ms : List Lexeme} {args : List Expr} {head : Expr} {links : List Link} :
      Given n ls args → Chain ctx n ms head links →
      Given n (ls ++ ms ++ [.symbol ',']) (argumentOf head links :: args)

/-- What stands before a chain: the beginnings of the chains around it, each up to the parenthesis
or the comma after which the next one begins.  The chain inside may be nested `n` levels deep. -/
inductive Opened : Nat → List Lexeme → List Level → Prop
  | nil {n : Nat} : Opened n [] []
  | group {n : Nat} {ls ms ss : List Lexeme} {outer : List Level} {before : Before}
      {negative : Bool} :
      Opened (n + 1) ls outer → Begun ctx (n + 1) ms before → Signs ctx.dialect ss negative →
      Opened n (ls ++ ms ++ ss ++ [.symbol '(']) (⟨before, negative, .group⟩ :: outer)
  | call {n : Nat} {ls ms ss gs : List Lexeme} {outer : List Level} {before : Before}
      {negative : Bool} {name : List Char} {f : Declaration} {args : List Expr} :
      Opened (n + 1) ls outer → Begun ctx (n + 1) ms before → Signs ctx.dialect ss negative →
      ctx.dialect.strict = false → ctx.functions.lookup? (String.ofList name) = some f →
      f.arity.isCounted → Given ctx n gs args → args.length < f.arity.count →
      Opened n (ls ++ ms ++ ss ++ [.name name, .symbol '('] ++ gs)
        (⟨before, negative, .call f args⟩ :: outer)

/-- The lexemes that have been read, as a state stands for them; `N` levels are allowed in all. -/
inductive Explains (N : Nat) : List Lexeme → State → Prop
  | operand {n : Nat} {os bs ss : List Lexeme} {outer : List Level} {before : Before}
      {negative : Bool} {closings : List Char} :
      n + outer.length = N → Opened ctx n os outer → Begun ctx n bs before →
      Signs ctx.dialect ss negative →
      Explains N (os ++ bs ++ ss) ⟨.operand before negative, outer, closings⟩
  | operator {n : Nat} {os bs es : List Lexeme} {outer : List Level} {before : Before}
      {last : Expr} {closings : List Char} :
      n + outer.length = N → Opened ctx n os outer → Begun ctx n bs before →
      Operand ctx n es last →
      Explains N (os ++ bs ++ es) ⟨.operator before last, outer, closings⟩
  | opening {n : Nat} {os bs ss : List Lexeme} {outer : List Level} {before : Before}
      {negative : Bool} {name : List Char} {f : Declaration} {closings : List Char} :
      n + outer.length = N → Opened ctx n os outer → Begun ctx n bs before →
      Signs ctx.dialect ss negative → ctx.dialect.strict = false →
      ctx.functions.lookup? (String.ofList name) = some f →
      Explains N (os ++ bs ++ ss ++ [.name name]) ⟨.opening before negative f, outer, closings⟩

variable {ctx}

/-- The part before an operand and the operand are a chain. -/
theorem Begun.chain {n : Nat} {ls ms : List Lexeme} {before : Before} {last : Expr}
    (h : Begun ctx n ls before) (hlast : Operand ctx n ms last) :
    Chain ctx n (ls ++ ms) (links before last []).1 (links before last []).2 := by
  induction h generalizing ms last with
  | nil => exact .single hlast
  | link op _ he ih =>
    have h := Chain.link op (ih he) hlast
    rw [links_cons]
    simpa using h

/-- The arguments before an argument and the argument are all arguments. -/
theorem Given.arguments {n : Nat} {ls ms : List Lexeme} {args : List Expr} {head : Expr}
    {links : List Link} (h : Given ctx n ls args) (hlast : Chain ctx n ms head links) :
    Arguments ctx n (args.length + 1) (ls ++ ms) (argumentOf head links :: args).reverse := by
  induction h generalizing ms head links with
  | nil => exact .first hlast
  | next _ harg ih =>
    have h := Arguments.next (ih harg) hlast
    rw [List.reverse_cons]
    simpa using h

theorem Signs.plus {dialect : Dialect} {ss : List Lexeme} {negative : Bool}
    (h : Signs dialect ss negative) (hstrict : dialect.strict = false) :
    Signs dialect (ss ++ [.symbol '+']) negative := by
  refine ⟨fun l hl ↦ ?_, by simpa using h.odd⟩
  obtain hl | rfl := by simpa using hl
  · exact h.mem l hl
  · exact ⟨hstrict, .inl rfl⟩

theorem Signs.minus {dialect : Dialect} {ss : List Lexeme} {negative : Bool}
    (h : Signs dialect ss negative) (hstrict : dialect.strict = false) :
    Signs dialect (ss ++ [.symbol '-']) (!negative) := by
  refine ⟨fun l hl ↦ ?_, ?_⟩
  · obtain hl | rfl := by simpa using hl
    · exact h.mem l hl
    · exact ⟨hstrict, .inr rfl⟩
  · rw [h.odd, List.count_append, List.count_singleton_self, ← decide_not]
    refine decide_eq_decide.2 ?_
    omega

/-! ## Lexemes of a text -/

theorem not_isAlpha_of_isDigit {c : Char} (h : c.isDigit) : ¬ c.isAlpha := by
  intro halpha
  have hlower := Digits.le_toNat_of_isAlpha halpha
  have hupper := (Digits.toNat_of_isDigit h).2
  omega

/-- In the strict language there are no names, and words consist of digits. -/
def Admissible (strict : Bool) : Lexeme → Prop
  | .number word => strict → ∀ c ∈ word, c.isDigit
  | .name _ => strict = false
  | _ => True

theorem admissible_ofWord {strict : Bool} {c : Char} {cs : List Char}
    (hc : Token.isWordChar strict c) (hcs : ∀ d ∈ cs, Token.isWordChar strict d) :
    Admissible strict (Token.ofWord c cs) := by
  have hdigits : strict = true → ∀ d ∈ c :: cs, d.isDigit := by
    rintro rfl d hd
    obtain rfl | hd := List.mem_cons.1 hd
    · simpa [Token.isWordChar] using hc
    · simpa [Token.isWordChar] using hcs d hd
  rw [Token.ofWord]
  split
  · rename_i halpha
    cases strict with
    | false => rfl
    | true => exact absurd halpha (not_isAlpha_of_isDigit (hdigits rfl c List.mem_cons_self))
  · exact hdigits

theorem admissible_scan (strict : Bool) (position : Nat) (cs : List Char) :
    ∀ t ∈ Token.scan strict position cs, Admissible strict t.lexeme := by
  fun_induction Token.scan strict position cs with
  | case1 position => simp [Admissible]
  | case2 position c cs hgap ih => exact ih
  | case3 position c cs hgap hword word ih =>
    intro t ht
    obtain rfl | ht := List.mem_cons.1 ht
    · exact admissible_ofWord hword fun d hd ↦ List.mem_takeWhile_imp hd
    · exact ih t ht
  | case4 position c cs hgap hword ih =>
    intro t ht
    obtain rfl | ht := List.mem_cons.1 ht
    · trivial
    · exact ih t ht

/-! ## One token -/

theorem Explains.start (N : Nat) : Explains ctx N ([] ++ [] ++ []) start :=
  .operand (n := N) rfl .nil .nil (.nil _)

/-- An opening parenthesis leads into a level, if the dialect has one left. -/
theorem enter_eq_ok {s s' : State} {level : Level} (h : s.enter ctx level = .ok s') :
    (s.outer.length : Int) < ctx.dialect.maxDepth ∧
      s' = { s with place := .operand [] false, outer := level :: s.outer } := by
  unfold State.enter at h
  dsimp only at h
  split at h
  · cases h
  · rename_i hlt
    split at h
    · cases h
    · rw [List.length_cons] at hlt
      exact ⟨by omega, (Except.ok.inj h).symm⟩

section Steps

variable {N : Nat} (hdepth : ctx.dialect.maxDepth ≤ N)
  (hfunctions : ∀ d ∈ ctx.functions.declarations, 1 ≤ d.arity.count)

include hdepth in
/-- A level can only be opened if there is one left. -/
theorem length_lt_of_enter {s s' : State} {level : Level} (h : s.enter ctx level = .ok s') :
    s.outer.length < N ∧ s' = { s with place := .operand [] false, outer := level :: s.outer } := by
  obtain ⟨hlt, rfl⟩ := enter_eq_ok h
  exact ⟨by omega, rfl⟩

include hdepth in
theorem Explains.openGroup {n : Nat} {os bs ss : List Lexeme} {outer : List Level}
    {before : Before} {negative : Bool} {place : Place} {closings : List Char} {s' : State}
    (hn : n + outer.length = N) (ho : Opened ctx n os outer) (hb : Begun ctx n bs before)
    (hs : Signs ctx.dialect ss negative)
    (h : State.enter ctx ⟨place, outer, closings⟩ ⟨before, negative, .group⟩ = .ok s') :
    Explains ctx N (os ++ bs ++ ss ++ [.symbol '(']) s' := by
  obtain ⟨hlt, rfl⟩ := length_lt_of_enter hdepth h
  obtain ⟨m, rfl⟩ : ∃ m, n = m + 1 := ⟨n - 1, by have : outer.length < N := hlt; omega⟩
  have h : Explains ctx N _ ⟨_, _, closings⟩ :=
    .operand (n := m) (by rw [List.length_cons]; omega) (.group ho hb hs) .nil (.nil _)
  simpa using h

include hdepth in
theorem Explains.readOperand {n : Nat} {os bs ss : List Lexeme} {outer : List Level}
    {before : Before} {negative : Bool} {closings : List Char} {t : Token} {s' : State}
    (hn : n + outer.length = N) (ho : Opened ctx n os outer) (hb : Begun ctx n bs before)
    (hs : Signs ctx.dialect ss negative) (ht : Admissible ctx.dialect.strict t.lexeme)
    (h : State.readOperand ctx ⟨.operand before negative, outer, closings⟩ before negative t =
      .ok s') : Explains ctx N (os ++ bs ++ ss ++ [t.lexeme]) s' := by
  rw [State.readOperand] at h
  split at h
  · rename_i word hl
    rw [hl] at ht ⊢
    split at h
    · rename_i d hd
      obtain rfl := (Except.ok.inj h).symm
      rw [List.append_assoc]
      exact .operator hn ho hb (.number hs ((number_eq_ok_iff ht).1 hd))
    · cases h
  · rename_i name hl
    rw [hl] at ht ⊢
    split at h
    · rename_i f hf
      obtain rfl := (Except.ok.inj h).symm
      exact .opening hn ho hb hs ht hf
    · cases h
  · rename_i c hl
    rw [hl]
    split at h
    · rename_i hc
      subst hc
      exact .openGroup hdepth hn ho hb hs h
    · split at h
      · rename_i hc
        obtain rfl := (Except.ok.inj h).symm
        rw [hc.1, List.append_assoc]
        exact .operand hn ho hb (hs.plus (by simpa using hc.2))
      · split at h
        · rename_i hc
          obtain rfl := (Except.ok.inj h).symm
          rw [hc.1, List.append_assoc]
          exact .operand hn ho hb (hs.minus (by simpa using hc.2))
        · cases h
  · cases h

theorem Explains.readLink {n : Nat} {os bs es : List Lexeme} {outer : List Level}
    {before : Before} {last : Expr} {s s' : State} {c : Char} (hn : n + outer.length = N)
    (ho : Opened ctx n os outer) (hb : Begun ctx n bs before) (he : Operand ctx n es last)
    (houter : s.outer = outer) (h : s.readLink before last c = .ok s') :
    Explains ctx N (os ++ bs ++ es ++ [.symbol c]) s' := by
  rw [State.readLink] at h
  split at h
  · rename_i op hop
    obtain rfl := (Except.ok.inj h).symm
    have h : Explains ctx N _ ⟨_, _, s.closings⟩ := .operand hn ho (.link op hb he) (.nil _)
    rw [Operator.symbol_of_ofSymbol? hop] at h
    subst houter
    simpa using h
  · cases h

theorem Explains.closeGroup {n : Nat} {os bs es : List Lexeme} {outer : List Level}
    {before inner : Before} {negative : Bool} {last : Expr} {closings : List Char}
    (hn : n + (outer.length + 1) = N)
    (ho : Opened ctx n os (⟨before, negative, .group⟩ :: outer)) (hb : Begun ctx n bs inner)
    (he : Operand ctx n es last) :
    Explains ctx N (os ++ bs ++ es ++ [.symbol ')'])
      ⟨.operator before (withSign negative (close inner last)), outer, closings⟩ := by
  cases ho with
  | group ho' hb' hs' =>
    have h : Explains ctx N _ ⟨_, _, closings⟩ :=
      .operator (n := n + 1) (by omega) ho' hb' (.group hs' (hb.chain he))
    rw [← close_eq] at h
    simpa [withSign_eq] using h

theorem Explains.closeArgument {n : Nat} {os bs es : List Lexeme} {outer : List Level}
    {before inner : Before} {negative : Bool} {last : Expr} {f : Declaration} {args : List Expr}
    {s s' : State} {c : Char} (hn : n + (outer.length + 1) = N)
    (ho : Opened ctx n os (⟨before, negative, .call f args⟩ :: outer)) (hb : Begun ctx n bs inner)
    (he : Operand ctx n es last)
    (h : s.closeArgument ⟨before, negative, .call f args⟩ outer f (argument inner last :: args) c =
      .ok s') : Explains ctx N (os ++ bs ++ es ++ [.symbol c]) s' := by
  cases ho with
  | call ho' hb' hs' hstrict hf hcounted hgiven hcount =>
    rw [State.closeArgument] at h
    rw [List.length_cons] at h
    split at h
    · rename_i hle
      split at h
      · rename_i hc
        subst hc
        obtain rfl := (Except.ok.inj h).symm
        have harity : f.arity.count = args.length + 1 := by omega
        have harguments := hgiven.arguments (hb.chain he)
        rw [← harity, ← argument_eq] at harguments
        have h : Explains ctx N _ ⟨_, _, s.closings⟩ :=
          .operator (n := n + 1) (by omega) ho' hb' (.call hs' hstrict hf hcounted harguments)
        simpa [withSign_eq, Declaration.call] using h
      · cases h
    · rename_i hlt
      split at h
      · rename_i hc
        subst hc
        obtain rfl := (Except.ok.inj h).symm
        have hnext := Given.next hgiven (hb.chain he)
        rw [← argument_eq] at hnext
        have h : Explains ctx N _ ⟨_, _, s.closings⟩ :=
          .operand (n := n) (by rw [List.length_cons]; omega)
            (.call ho' hb' hs' hstrict hf hcounted hnext (by rw [List.length_cons]; omega))
            .nil (.nil _)
        simpa using h
      · cases h

theorem Explains.readOperator {n : Nat} {os bs es : List Lexeme} {outer : List Level}
    {before : Before} {last : Expr} {closings : List Char} {t : Token} {s' : State}
    (hn : n + outer.length = N) (ho : Opened ctx n os outer) (hb : Begun ctx n bs before)
    (he : Operand ctx n es last)
    (h : State.readOperator ⟨.operator before last, outer, closings⟩ before last t = .ok s') :
    Explains ctx N (os ++ bs ++ es ++ [t.lexeme]) s' := by
  rw [State.readOperator] at h
  split at h
  · cases h
  · cases h
  · cases h
  · rename_i c hl
    rw [hl]
    dsimp only at h
    split at h
    · exact .readLink hn ho hb he rfl h
    · rename_i level outer
      obtain ⟨before', negative, opening⟩ := level
      rw [List.length_cons] at hn
      dsimp only at h
      split at h
      · split at h
        · rename_i hc
          subst hc
          obtain rfl := (Except.ok.inj h).symm
          exact .closeGroup hn ho hb he
        · exact .readLink hn ho hb he rfl h
      · split at h
        · exact .closeArgument hn ho hb he h
        · exact .readLink hn ho hb he rfl h

include hdepth hfunctions in
/-- **A token keeps the explanation.** -/
theorem Explains.read {ls : List Lexeme} {s s' : State} {t : Token} (hs : Explains ctx N ls s)
    (ht : Admissible ctx.dialect.strict t.lexeme) (h : s.read ctx t = .ok s') :
    Explains ctx N (ls ++ [t.lexeme]) s' := by
  cases hs with
  | operand hn ho hb hs => exact .readOperand hdepth hn ho hb hs ht h
  | operator hn ho hb he => exact .readOperator hn ho hb he h
  | @opening n os bs ss outer before negative name f closings hn ho hb hs hstrict hf =>
    simp only [State.read, State.readOpening] at h
    split at h
    · rename_i hl
      rw [hl]
      split at h
      · rename_i hcounted
        obtain ⟨hlt, rfl⟩ := length_lt_of_enter hdepth h
        obtain ⟨m, rfl⟩ : ∃ m, n = m + 1 :=
          ⟨n - 1, by have : outer.length < N := hlt; omega⟩
        have hcount := hfunctions f (List.mem_of_find?_eq_some hf)
        have h : Explains ctx N _ ⟨_, _, closings⟩ :=
          .operand (n := m) (by rw [List.length_cons]; omega)
            (.call ho hb hs hstrict hf hcounted .nil hcount) .nil (.nil _)
        simpa using h
      · cases h
    · cases h

include hdepth hfunctions in
/-- A list of tokens keeps the explanation. -/
theorem Explains.run {ls : List Lexeme} {s s' : State} {ts : List Token} (hs : Explains ctx N ls s)
    (hts : ∀ t ∈ ts, Admissible ctx.dialect.strict t.lexeme) (h : run ctx s ts = .ok s') :
    Explains ctx N (ls ++ ts.map Token.lexeme) s' := by
  induction ts generalizing ls s with
  | nil =>
    obtain rfl : s = s' := Except.ok.inj h
    simpa using hs
  | cons t ts ih =>
    rw [run_cons] at h
    cases hread : s.read ctx t with
    | error stop => rw [hread] at h; cases h
    | ok s'' =>
      rw [hread] at h
      have hs'' := hs.read hdepth hfunctions (hts t List.mem_cons_self) hread
      have := ih hs'' (fun t' ht' ↦ hts t' (List.mem_cons_of_mem t ht')) h
      rw [List.map_cons]
      simpa using this

/-- A text that ends well is explained by a derivation. -/
theorem Explains.finish {ls : List Lexeme} {s : State} {e : Expr} (hs : Explains ctx N ls s)
    (h : s.finish = .ok e) : Spells ctx N ls e := by
  cases hs with
  | @operand n os bs ss outer before negative closings hn ho hb hs =>
    cases outer <;> cases before <;> cases h
  | @operator n os bs es outer before last closings hn ho hb he =>
    cases outer with
    | cons level outer => cases h
    | nil =>
      cases ho
      obtain rfl : n = N := hn
      obtain rfl := (Except.ok.inj h).symm
      exact ⟨_, _, hb.chain he, close_eq before last⟩
  | opening => cases h

end Steps

/-! ## Whole texts -/

theorem Operand.ne_nil {n : Nat} {ls : List Lexeme} {e : Expr} (h : Operand ctx n ls e) :
    ls ≠ [] := by
  cases h <;> simp

theorem Chain.ne_nil {n : Nat} {ls : List Lexeme} {head : Expr} {links : List Link}
    (h : Chain ctx n ls head links) : ls ≠ [] := by
  cases h with
  | single h => exact h.ne_nil
  | link => simp

theorem admissible_lexemes (strict : Bool) (text : String) :
    ∀ t ∈ (Token.ofText strict text).dropLast, Admissible strict t.lexeme :=
  fun t ht ↦ admissible_scan strict 0 text.toList t (List.dropLast_subset _ ht)

/-- A list of tokens that is read leads to a state in which an expression can end. -/
theorem run_of_readTokens {ts : List Token} {e : Expr}
    (h : (Parser.readTokens ctx ts).value = .ok e) :
    0 ≤ ctx.dialect.maxDepth ∧ ∃ s, run ctx start ts = .ok s ∧ s.finish = .ok e := by
  have hstopped : ∀ stop, (Parser.stopped (α := Expr) stop).value ≠ .ok e := by
    rintro ⟨closings, _ | _⟩ <;> simp [Parser.stopped]
  rw [Parser.readTokens] at h
  split at h
  · exact absurd h (hstopped _)
  · rename_i hdepth
    refine ⟨Int.not_lt.1 hdepth, ?_⟩
    split at h
    · exact absurd h (hstopped _)
    · rename_i s hrun
      refine ⟨s, hrun, ?_⟩
      split at h
      · exact absurd h (hstopped _)
      · rename_i e' hfinish
        obtain rfl : e' = e := Except.ok.inj h
        exact hfinish

/-- A list of tokens that is read is spelled by the grammar. -/
theorem spells_of_readTokens {ts : List Token} {e : Expr}
    (hfunctions : ∀ d ∈ ctx.functions.declarations, 1 ≤ d.arity.count)
    (hts : ∀ t ∈ ts, Admissible ctx.dialect.strict t.lexeme)
    (h : (Parser.readTokens ctx ts).value = .ok e) :
    ∃ n : Nat, (n : Int) ≤ ctx.dialect.maxDepth ∧ Spells ctx n (ts.map Token.lexeme) e := by
  obtain ⟨hdepth, s, hrun, hfinish⟩ := run_of_readTokens h
  obtain ⟨N, hN⟩ := Int.eq_ofNat_of_zero_le hdepth
  have hstart : Explains ctx N [] Reader.start := .start N
  have hs := hstart.run (Int.le_of_eq hN) hfunctions hts hrun
  exact ⟨N, Int.le_of_eq hN.symm, hs.finish hfinish⟩

/-- A list of tokens that the grammar spells is read, or is nested too deeply for the host. -/
theorem Spells.readTokens {n : Nat} {ts : List Token} {e : Expr}
    (hn : (n : Int) ≤ ctx.dialect.maxDepth)
    (h : Spells ctx n (ts.map Token.lexeme) e) :
    (Parser.readTokens ctx ts).value = .ok e ∨
      ¬ ctx.host.Follows n ∧
        (Parser.readTokens ctx ts).value = .error (.rejected .tooDeepToFollow) := by
  obtain ⟨head, links, hchain, rfl⟩ := h
  obtain ⟨before, last, hlinks, hreads⟩ := hchain.reads hn [] (by simp)
  have hdepth : ¬ ctx.dialect.maxDepth < 0 := by omega
  rw [Parser.readTokens]
  rw [if_neg hdepth]
  obtain ⟨closings, hrun⟩ | ⟨hdeep, closings, hrun⟩ := hreads ts rfl []
  · refine .inl ?_
    rw [start, hrun]
    show Except.ok (close before last) = _
    rw [close_eq, hlinks]
  · refine .inr ⟨hdeep, ?_⟩
    rw [start, hrun]
    rfl

/-- A text that is read has tokens, and they are read. -/
theorem readTokens_of_parseRaw {text : String} {e : Expr}
    (h : (Parser.parseRaw ctx text).value = .ok (some e)) :
    (text.length : Int) ≤ ctx.dialect.maxLength ∧
      (Parser.readTokens ctx (Token.ofText ctx.dialect.strict text).dropLast).value = .ok e := by
  rw [Parser.parseRaw] at h
  split at h
  · cases h
  · rename_i hlength
    refine ⟨Int.not_lt.1 hlength, ?_⟩
    split at h
    · cases h
    · rw [Log.Logged.map] at h
      cases hread :
          (Parser.readTokens ctx (Token.ofText ctx.dialect.strict text).dropLast).value with
      | error u => rw [hread] at h; cases h
      | ok e' => rw [hread] at h; cases h; rfl

theorem parseRaw_value {text : String} (hlength : (text.length : Int) ≤ ctx.dialect.maxLength)
    (hne : (Token.ofText ctx.dialect.strict text).dropLast ≠ []) :
    (Parser.parseRaw ctx text).value =
      (Parser.readTokens ctx (Token.ofText ctx.dialect.strict text).dropLast).value.map some := by
  rw [Parser.parseRaw]
  rw [if_neg (Int.not_lt.2 hlength)]
  split
  · rename_i h
    exact absurd h hne
  · rfl

/-- A text that is too long is rejected before its tokens are looked at. -/
theorem parseRaw_tooLong {ctx : Reader.Context} {text : String}
    (hlength : ctx.dialect.maxLength < text.length) :
    (Parser.parseRaw ctx text).value = .error (.rejected (.tooLong ctx.dialect.maxLength)) := by
  rw [Parser.parseRaw, if_pos hlength]

/-- The tokens of a text are read as an expression or not at all. -/
theorem parseRaw_eq_none_iff {ctx : Reader.Context} {text : String} :
    (Parser.parseRaw ctx text).value = .ok none ↔
      (text.length : Int) ≤ ctx.dialect.maxLength ∧ lexemes ctx.dialect.strict text = [] := by
  rw [lexemes, List.map_eq_nil_iff]
  rcases lt_or_ge ctx.dialect.maxLength text.length with hlength | hlength
  · rw [parseRaw_tooLong hlength]
    exact iff_of_false (by simp) (fun h ↦ absurd h.1 (Int.not_le.2 hlength))
  · by_cases hnil : (Token.ofText ctx.dialect.strict text).dropLast = []
    · rw [Parser.parseRaw, if_neg (Int.not_lt.2 hlength), hnil]
      exact iff_of_true rfl ⟨hlength, rfl⟩
    · rw [parseRaw_value hlength hnil]
      refine iff_of_false ?_ (fun h ↦ hnil h.2)
      cases (Parser.readTokens ctx (Token.ofText ctx.dialect.strict text).dropLast).value <;>
        simp [Except.map]

/-- The expression of a text is spelled by the grammar. -/
theorem spells_of_parseRaw {text : String} {e : Expr}
    (hfunctions : ∀ d ∈ ctx.functions.declarations, 1 ≤ d.arity.count)
    (h : (Parser.parseRaw ctx text).value = .ok (some e)) :
    (text.length : Int) ≤ ctx.dialect.maxLength ∧ ∃ n : Nat, (n : Int) ≤ ctx.dialect.maxDepth ∧
      Spells ctx n (lexemes ctx.dialect.strict text) e := by
  obtain ⟨hlength, hread⟩ := readTokens_of_parseRaw h
  exact ⟨hlength, spells_of_readTokens hfunctions (admissible_lexemes _ text) hread⟩

/-- A text that the grammar spells is read, or is nested too deeply for the host. -/
theorem Spells.parseRaw {n : Nat} {text : String} {e : Expr} (hn : (n : Int) ≤ ctx.dialect.maxDepth)
    (hlength : (text.length : Int) ≤ ctx.dialect.maxLength)
    (h : Spells ctx n (lexemes ctx.dialect.strict text) e) :
    (Parser.parseRaw ctx text).value = .ok (some e) ∨
      ¬ ctx.host.Follows n ∧
        (Parser.parseRaw ctx text).value = .error (.rejected .tooDeepToFollow) := by
  have hne : (Token.ofText ctx.dialect.strict text).dropLast ≠ [] := by
    obtain ⟨head, links, hchain, -⟩ := h
    intro hnil
    exact hchain.ne_nil (by rw [lexemes, hnil]; rfl)
  rw [parseRaw_value hlength hne]
  obtain h | ⟨hdeep, h⟩ := Spells.readTokens hn h
  · exact .inl (by rw [h]; rfl)
  · exact .inr ⟨hdeep, by rw [h]; rfl⟩

/-- **The reader accepts what the grammar derives, and nothing else.**  A text has the expression
`e` exactly if its lexemes spell `e` within the depth that the dialect allows, and then they spell
no other expression.  The host has to be able to follow the text. -/
theorem parseRaw_eq_some_iff {text : String} {e : Expr}
    (hlength : (text.length : Int) ≤ ctx.dialect.maxLength)
    (hfunctions : ∀ d ∈ ctx.functions.declarations, 1 ≤ d.arity.count)
    (hhost : (Parser.parseRaw ctx text).value ≠ .error (.rejected .tooDeepToFollow)) :
    (Parser.parseRaw ctx text).value = .ok (some e) ↔
      (∃ n : Nat, (n : Int) ≤ ctx.dialect.maxDepth ∧
        Spells ctx n (lexemes ctx.dialect.strict text) e) ∧
      ∀ (n : Nat) (e' : Expr), (n : Int) ≤ ctx.dialect.maxDepth →
        Spells ctx n (lexemes ctx.dialect.strict text) e' → e' = e := by
  have hread : ∀ (n : Nat) (e' : Expr), (n : Int) ≤ ctx.dialect.maxDepth →
      Spells ctx n (lexemes ctx.dialect.strict text) e' →
      (Parser.parseRaw ctx text).value = .ok (some e') := by
    intro n e' hn h
    obtain h | ⟨-, h⟩ := h.parseRaw hn hlength
    · exact h
    · exact absurd h hhost
  constructor
  · intro h
    refine ⟨(spells_of_parseRaw hfunctions h).2, fun n e' hn h' ↦ ?_⟩
    have h' := hread n e' hn h'
    rw [h] at h'
    cases h'
    rfl
  · rintro ⟨⟨n, hn, h⟩, -⟩
    exact hread n e hn h

/-- A single digit is a number in every dialect that allows the exponent zero. -/
theorem Literal.digit {dialect : Dialect} (hbound : 0 ≤ dialect.maxLiteralExponent) {n : Nat}
    (hn : n < 10) : Literal dialect [Nat.digitChar n] (.finite false n 0) := by
  have hfacts : ∀ n < 10, (Nat.digitChar n).isDigit = true ∧
      Digits.value [Nat.digitChar n] = n ∧ Digits.count n = 1 := by decide +kernel
  obtain ⟨hdigit, hvalue, hcount⟩ := hfacts n hn
  have hmem : ∀ c ∈ [Nat.digitChar n], c.isDigit := by simpa using hdigit
  have hmagnitude : Decimal.magnitude n 0 = 0 := by rw [Decimal.magnitude, hcount]; rfl
  refine .intro (.whole (by simp) hmem) .none hvalue.symm rfl (fun _ ↦ hmem) ?_ hbound
    (fits_of_magnitude_le false (show (0 : Int) ≤ _ by decide) ?_)
  · rw [hmagnitude]
    exact hbound
  · rw [hmagnitude]
    decide

/-- A single digit is an operand. -/
theorem Operand.digit (hbound : 0 ≤ ctx.dialect.maxLiteralExponent) (depth : Nat) {n : Nat}
    (hn : n < 10) :
    Operand ctx depth [.number [Nat.digitChar n]] (signedNumber false (.finite false n 0)) :=
  .number (.nil _) (.digit hbound hn)

/-- The standard dialect with the built-in functions. -/
def standardContext : Context :=
  ⟨⟨false, 100, 10000, 10000⟩, .builtins (Settings.standard.arithmetic .native), .native⟩

/-- `-If(1, (2), 3 + 4)` as it is written. -/
def negatedCall : Expr :=
  .chain false (signed true (.call "if" .choose
    [signedNumber false (.finite false 1 0),
     .chain false (signedNumber false (.finite false 2 0)) [],
     .chain false (signedNumber false (.finite false 3 0))
      [(.plus, signedNumber false (.finite false 4 0))]])) []

theorem spells_negatedCall :
    Spells standardContext 2 (lexemes false "-If(1, (2), 3 + 4)") negatedCall := by
  have hdigit : ∀ (k : Nat) {n : Nat} (_ : n < 10), Operand standardContext k
      [.number [Nat.digitChar n]] (signedNumber false (.finite false n 0)) :=
    Operand.digit (by decide)
  have hlexemes : lexemes false "-If(1, (2), 3 + 4)" =
      [Lexeme.symbol '-'] ++ Lexeme.name ['I', 'f'] :: Lexeme.symbol '(' ::
        ([Lexeme.number ['1']] ++
          Lexeme.symbol ',' ::
            ([] ++ Lexeme.symbol '(' :: [Lexeme.number ['2']] ++ [Lexeme.symbol ')']) ++
          Lexeme.symbol ',' ::
            ([Lexeme.number ['3']] ++ Lexeme.symbol '+' :: [Lexeme.number ['4']])) ++
        [Lexeme.symbol ')'] := by
    decide +kernel
  have hif : standardContext.functions.lookup? (String.ofList ['I', 'f']) =
      some ⟨"if", ⟨3, .whole⟩, .choose⟩ :=
    (List.find?_cons_of_neg (by decide +kernel)).trans (List.find?_cons_of_pos (by decide +kernel))
  rw [hlexemes]
  refine ⟨_, _, .single (.call (Signs.minus (.nil _) rfl) rfl hif rfl ?_), rfl⟩
  have hfirst := Arguments.first (.single (hdigit 1 (show 1 < 10 by decide)))
  have hsecond :=
    hfirst.next (.single (.group (.nil _) (.single (hdigit 0 (show 2 < 10 by decide)))))
  exact hsecond.next (.link .plus (.single (hdigit 1 (show 3 < 10 by decide)))
    (hdigit 1 (show 4 < 10 by decide)))

theorem parseRaw_negatedCall :
    (Parser.parseRaw standardContext "-If(1, (2), 3 + 4)").value = .ok (some negatedCall) := by
  obtain h | ⟨hdeep, -⟩ := spells_negatedCall.parseRaw (by decide) (by decide)
  · exact h
  · exact absurd (Host.follows_framed (by decide)) hdeep

/-- A call with a sign, a group as an argument and a chain as another. -/
theorem parseRaw_eq_some_iff_negatedCall :
    (Parser.parseRaw standardContext "-If(1, (2), 3 + 4)").value ≠
        .error (.rejected .tooDeepToFollow) ∧
      ∀ (n : Nat) (e : Expr), (n : Int) ≤ 100 →
        Spells standardContext n (lexemes false "-If(1, (2), 3 + 4)") e → e = negatedCall := by
  have hhost : (Parser.parseRaw standardContext "-If(1, (2), 3 + 4)").value ≠
      .error (.rejected .tooDeepToFollow) := by
    rw [parseRaw_negatedCall]
    simp
  have hfunctions : ∀ d ∈ standardContext.functions.declarations, 1 ≤ d.arity.count := by
    simp [standardContext, Registry.builtins]
  exact ⟨hhost, ((parseRaw_eq_some_iff (by decide) hfunctions hhost).1 parseRaw_negatedCall).2⟩

end Formula.Grammar
