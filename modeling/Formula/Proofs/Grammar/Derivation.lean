import Formula.Proofs.Grammar.Literal

/-!
# What the grammar derives is read

A derivation is followed rule by rule.  `Reads` says that the reader gets from one place to another
by a list of lexemes; it composes (`Reads.append`), so each rule of the grammar needs only what the
reader does at the tokens of that rule.

The host cannot follow groups and calls to any depth.  A reading that goes too deep for it ends with
the complaint `tooDeepToFollow`, and `Reads` leaves room for that end, if the nesting exceeds what
the host can follow.

* `Operand.reads`, `Chain.reads`, `Arguments.reads` — an operand is read from before an operand to
  after it, a chain within its parentheses, and the arguments of a call up to the last one.
-/

set_option autoImplicit false

namespace Formula.Grammar

open Reader

variable (ctx : Context)

/-! ## Readings that arrive -/

/-- The reading ends at a place, or the host gives up. -/
def Arrives (deep : Prop) (r : Except Stop State) (place : Place) (outer : List Level) : Prop :=
  (∃ closings, r = .ok ⟨place, outer, closings⟩) ∨
    deep ∧ ∃ closings, r = .error ⟨closings, .rejected .tooDeepToFollow⟩

/-- The lexemes lead the reader from one place to another, or the host gives up. -/
def Reads (deep : Prop) (ls : List Lexeme) (place : Place) (outer : List Level) (place' : Place)
    (outer' : List Level) : Prop :=
  ∀ ts : List Token, ts.map Token.lexeme = ls → ∀ closings,
    Arrives deep (run ctx ⟨place, outer, closings⟩ ts) place' outer'

variable {ctx} {deep : Prop} {place place' place'' : Place} {outer outer' outer'' : List Level}

theorem Arrives.ok (closings : List Char) :
    Arrives deep (.ok ⟨place, outer, closings⟩) place outer :=
  .inl ⟨closings, rfl⟩

theorem Reads.nil : Reads ctx deep [] place outer place outer := by
  rintro ts hts closings
  obtain rfl := List.map_eq_nil_iff.1 hts
  exact .ok closings

/-- Two readings in a row. -/
theorem Reads.append {ls ms : List Lexeme} (h : Reads ctx deep ls place outer place' outer')
    (h' : Reads ctx deep ms place' outer' place'' outer'') :
    Reads ctx deep (ls ++ ms) place outer place'' outer'' := by
  intro ts hts closings
  obtain ⟨us, vs, rfl, hus, hvs⟩ := List.map_eq_append_iff.1 hts
  rw [run_append]
  obtain ⟨cl, hrun⟩ | ⟨hdeep, cl, hrun⟩ := h us hus closings
  · rw [hrun]
    exact h' vs hvs cl
  · rw [hrun]
    exact .inr ⟨hdeep, cl, rfl⟩

/-- A reading of one lexeme. -/
theorem Reads.single {l : Lexeme}
    (h : ∀ (t : Token) (closings : List Char), t.lexeme = l →
      Arrives deep (State.read ctx ⟨place, outer, closings⟩ t) place' outer') :
    Reads ctx deep [l] place outer place' outer' := by
  intro ts hts closings
  obtain ⟨t, rfl, ht⟩ := List.map_eq_singleton_iff.1 hts
  have hrun : run ctx ⟨place, outer, closings⟩ [t] =
      State.read ctx ⟨place, outer, closings⟩ t := by
    simp [run]
  rw [hrun]
  exact h t closings ht

/-! ## Links -/

theorem links_append (before : Before) (last : Expr) (acc : List Link) :
    links before last acc = ((links before last []).1, (links before last []).2 ++ acc) := by
  induction before generalizing last acc with
  | nil => rfl
  | cons p before ih =>
    obtain ⟨e, op⟩ := p
    rw [links, links, ih e ((op, last) :: acc), ih e [(op, last)]]
    simp

/-- One operand more. -/
theorem links_cons (before : Before) (e last : Expr) (op : Operator) :
    links ((e, op) :: before) last [] =
      ((links before e []).1, (links before e []).2 ++ [(op, last)]) :=
  links_append before e [(op, last)]

theorem close_eq (before : Before) (last : Expr) :
    close before last = .chain false (links before last []).1 (links before last []).2 := rfl

theorem argument_eq (before : Before) (last : Expr) :
    argument before last = argumentOf (links before last []).1 (links before last []).2 := by
  cases before with
  | nil => rfl
  | cons p before =>
    obtain ⟨e, op⟩ := p
    have hne : (links ((e, op) :: before) last []).2 ≠ [] := by simp [links_cons]
    rw [argumentOf, if_neg hne, ← close_eq]
    rfl

theorem withSign_eq (negative : Bool) (e : Expr) : withSign negative e = signed negative e := rfl

/-! ## Single tokens -/

theorem Signs.nil (dialect : Dialect) : Signs dialect [] false := ⟨by simp, rfl⟩

/-- Signs only change the sign that the operand will have. -/
theorem Signs.reads {ss : List Lexeme} {negative : Bool} (h : Signs ctx.dialect ss negative)
    (before : Before) :
    Reads ctx deep ss (.operand before false) outer (.operand before negative) outer := by
  -- the sign that has been read so far takes part in the induction
  have hreads : ∀ (ss : List Lexeme),
      (∀ l ∈ ss, ctx.dialect.strict = false ∧ (l = .symbol '+' ∨ l = .symbol '-')) →
      ∀ sofar : Bool, Reads ctx deep ss (.operand before sofar) outer
        (.operand before (sofar ^^ decide (ss.count (.symbol '-') % 2 = 1))) outer := by
    intro ss
    induction ss with
    | nil =>
      intro _ sofar
      simpa using Reads.nil
    | cons l ss ih =>
      intro hmem sofar
      obtain ⟨hstrict, hl⟩ := hmem l List.mem_cons_self
      have hrest := ih fun l' hl' ↦ hmem l' (List.mem_cons_of_mem l hl')
      obtain rfl | rfl := hl
      · have hstep : Reads ctx deep [.symbol '+'] (.operand before sofar) outer
            (.operand before sofar) outer := by
          refine Reads.single fun t closings ht ↦ ?_
          simpa [State.read, State.readOperand, ht, hstrict] using Arrives.ok closings
        simpa using hstep.append (hrest sofar)
      · have hstep : Reads ctx deep [.symbol '-'] (.operand before sofar) outer
            (.operand before (!sofar)) outer := by
          refine Reads.single fun t closings ht ↦ ?_
          simpa [State.read, State.readOperand, ht, hstrict] using Arrives.ok closings
        have hparity : (!sofar ^^ decide (ss.count (.symbol '-') % 2 = 1)) =
            (sofar ^^ decide ((ss.count (.symbol '-') + 1) % 2 = 1)) := by
          rcases Nat.mod_two_eq_zero_or_one (ss.count (Lexeme.symbol '-')) with h | h <;>
            cases sofar <;> simp [Nat.add_mod, h]
        rw [List.count_cons_self, ← hparity]
        exact hstep.append (hrest (!sofar))
  have h' := hreads ss h.mem false
  rwa [Bool.false_xor, ← h.odd] at h'

/-- A number takes its sign into its value. -/
theorem Literal.reads {word : List Char} {d : Decimal}
    (h : Literal ctx.dialect word d) (before : Before) (negative : Bool) :
    Reads ctx deep [.number word] (.operand before negative) outer
      (.operator before (signedNumber negative d)) outer := by
  refine Reads.single fun t closings ht ↦ ?_
  have hstrict : ctx.dialect.strict → ∀ c ∈ word, c.isDigit := by
    cases h with
    | intro _ _ _ _ hstrict => exact hstrict
  have hnumber := (number_eq_ok_iff hstrict).2 h
  simpa [State.read, State.readOperand, ht, hnumber, signedNumber] using Arrives.ok closings

/-- An operator starts the next operand. -/
theorem reads_operator (op : Operator) (before : Before)
    (last : Expr) :
    Reads ctx deep [.symbol op.symbol] (.operator before last) outer
      (.operand ((last, op) :: before) false) outer := by
  refine Reads.single fun t closings ht ↦ ?_
  have hne : op.symbol ≠ ')' ∧ op.symbol ≠ ',' := by cases op <;> decide
  have hop := Operator.ofSymbol?_symbol op
  cases outer with
  | nil =>
    simpa [State.read, State.readOperator, ht, State.readLink, hop] using Arrives.ok closings
  | cons level outer =>
    cases ho : level.opening <;>
      simpa [State.read, State.readOperator, ht, State.readLink, hop, ho, hne.1, hne.2] using
        Arrives.ok closings

/-- An opening parenthesis is a level more, which the dialect has to allow. -/
theorem arrives_enter {N : Nat} (hN : (N : Int) ≤ ctx.dialect.maxDepth) {level : Level}
    (houter : outer.length < N) (place : Place) (closings : List Char) :
    Arrives (¬ ctx.host.Follows N) (State.enter ctx ⟨place, outer, closings⟩ level)
      (.operand [] false) (level :: outer) := by
  rw [State.enter]
  dsimp only
  rw [if_neg (by rw [List.length_cons]; omega)]
  split
  · rename_i hfull
    refine .inr ⟨fun hroom ↦ ?_, closings, rfl⟩
    have hfollows := hroom (brackets (level :: outer)) (by simpa using Nat.succ_le_of_lt houter)
    simp [hfollows] at hfull
  · exact .ok closings

theorem reads_group {N : Nat} (hN : (N : Int) ≤ ctx.dialect.maxDepth) (houter : outer.length < N)
    (before : Before) (negative : Bool) :
    Reads ctx (¬ ctx.host.Follows N) [.symbol '('] (.operand before negative) outer
      (.operand [] false) (⟨before, negative, .group⟩ :: outer) := by
  refine Reads.single fun t closings ht ↦ ?_
  simpa [State.read, State.readOperand, ht] using
    arrives_enter hN houter (.operand before negative) closings

variable (ctx deep outer) in
theorem reads_closeGroup (before inner : Before) (negative : Bool) (last : Expr) :
    Reads ctx deep [.symbol ')'] (.operator inner last) (⟨before, negative, .group⟩ :: outer)
      (.operator before (signed negative (close inner last))) outer := by
  refine Reads.single fun t closings ht ↦ ?_
  simpa [State.read, State.readOperator, ht, withSign_eq] using Arrives.ok (')' :: closings)

theorem reads_call {N : Nat} (hN : (N : Int) ≤ ctx.dialect.maxDepth) (houter : outer.length < N)
    {name : List Char} {f : Declaration}
    (hf : ctx.functions.lookup? (String.ofList name) = some f) (hcounted : f.arity.isCounted)
    (before : Before) (negative : Bool) :
    Reads ctx (¬ ctx.host.Follows N) [.name name, .symbol '('] (.operand before negative) outer
      (.operand [] false) (⟨before, negative, .call f []⟩ :: outer) := by
  have hname : Reads ctx (¬ ctx.host.Follows N) [.name name] (.operand before negative) outer
      (.opening before negative f) outer := by
    refine Reads.single fun t closings ht ↦ ?_
    simpa [State.read, State.readOperand, ht, hf] using Arrives.ok closings
  refine hname.append (Reads.single fun t closings ht ↦ ?_)
  simpa [State.read, State.readOpening, ht, hcounted] using
    arrives_enter hN houter (.opening before negative f) closings

/-- A comma ends an argument that is not the last one. -/
theorem reads_comma {f : Declaration} {args : List Expr} {before inner : Before} {negative : Bool}
    {last : Expr} (hcount : args.length + 1 < f.arity.count) :
    Reads ctx deep [.symbol ','] (.operator inner last) (⟨before, negative, .call f args⟩ :: outer)
      (.operand [] false) (⟨before, negative, .call f (argument inner last :: args)⟩ :: outer) := by
  refine Reads.single fun t closings ht ↦ ?_
  have hle : ¬ f.arity.count ≤ args.length + 1 := Nat.not_le.2 hcount
  simpa [State.read, State.readOperator, ht, State.closeArgument, hle] using
    Arrives.ok (',' :: closings)

variable (ctx deep outer) in
/-- A closing parenthesis ends the last argument, and with it the call. -/
theorem reads_closeCall {f : Declaration} {args : List Expr} (before inner : Before)
    (negative : Bool) (last : Expr) (hcount : f.arity.count ≤ args.length + 1) :
    Reads ctx deep [.symbol ')'] (.operator inner last) (⟨before, negative, .call f args⟩ :: outer)
      (.operator before (signed negative (f.call (argument inner last :: args).reverse)))
      outer := by
  refine Reads.single fun t closings ht ↦ ?_
  simpa [State.read, State.readOperator, ht, State.closeArgument, hcount, withSign_eq] using
    Arrives.ok (')' :: closings)

/-! ## Derivations -/

theorem Arguments.length_eq : ∀ {n k : Nat} {ls : List Lexeme} {es : List Expr},
    Arguments ctx n k ls es → es.length = k
  | _, _, _, _, .first _ => rfl
  | _, _, _, _, .next h _ => by rw [List.length_append, h.length_eq]; rfl

mutual

/-- An operand is read from before it to after it. -/
theorem Operand.reads {N : Nat} (hN : (N : Int) ≤ ctx.dialect.maxDepth) :
    ∀ {n : Nat} {ls : List Lexeme} {e : Expr}, Operand ctx n ls e →
      ∀ (outer : List Level) (before : Before), n + outer.length ≤ N →
        Reads ctx (¬ ctx.host.Follows N) ls (.operand before false) outer (.operator before e) outer
  | _, _, _, .number hsigns hliteral, outer, before, _ =>
    (hsigns.reads before).append (hliteral.reads before _)
  | _, _, _, @Operand.group _ _ _ _ negative _ _ hsigns hchain, outer, before, hn => by
    have houter : outer.length < N := by omega
    obtain ⟨inner, last, hlinks, hinner⟩ := hchain.reads hN (⟨before, negative, .group⟩ :: outer)
      (by rw [List.length_cons]; omega)
    have hopen := reads_group hN houter before negative
    have hclose := reads_closeGroup ctx (¬ ctx.host.Follows N) outer before inner negative last
    rw [close_eq, hlinks] at hclose
    exact ((hsigns.reads before).append (hopen.append hinner)).append hclose
  | _, _, _, @Operand.call _ _ _ _ negative _ f _ hsigns _ hf hcounted harguments, outer, before,
      hn => by
    have houter : outer.length < N := by omega
    obtain ⟨inner, last, args, hargs, hinner⟩ := harguments.reads hN before negative outer
      (Nat.le_refl _) (by omega)
    have hopen := reads_call hN houter hf hcounted before negative
    have hcount : f.arity.count ≤ args.length + 1 := by
      rw [← harguments.length_eq, ← List.length_reverse, ← hargs, List.length_cons]
    have hclose :=
      reads_closeCall ctx (¬ ctx.host.Follows N) outer before inner negative last hcount
    rw [hargs, List.reverse_reverse] at hclose
    exact ((hsigns.reads before).append (hopen.append hinner)).append hclose

/-- A chain is read from the beginning of its level to after its last operand. -/
theorem Chain.reads {N : Nat} (hN : (N : Int) ≤ ctx.dialect.maxDepth) :
    ∀ {n : Nat} {ls : List Lexeme} {head : Expr} {links : List Link}, Chain ctx n ls head links →
      ∀ outer : List Level, n + outer.length ≤ N →
        ∃ before last, Reader.links before last [] = (head, links) ∧
          Reads ctx (¬ ctx.host.Follows N) ls (.operand [] false) outer
            (.operator before last) outer
  | _, _, _, _, .single hoperand, outer, hn => ⟨[], _, rfl, hoperand.reads hN outer [] hn⟩
  | _, _, _, _, .link op hchain hoperand, outer, hn => by
    obtain ⟨before, last, hlinks, hreads⟩ := hchain.reads hN outer hn
    refine ⟨(last, op) :: before, _, by rw [links_cons, hlinks], ?_⟩
    exact hreads.append ((reads_operator op before last).append (hoperand.reads hN outer _ hn))

/-- The arguments of a call are read up to the end of the last one. -/
theorem Arguments.reads {N : Nat} (hN : (N : Int) ≤ ctx.dialect.maxDepth) :
    ∀ {n k : Nat} {ls : List Lexeme} {es : List Expr}, Arguments ctx n k ls es →
      ∀ (before : Before) (negative : Bool) (outer : List Level) {f : Declaration},
        k ≤ f.arity.count → n + 1 + outer.length ≤ N →
        ∃ inner last args, argument inner last :: args = es.reverse ∧
          Reads ctx (¬ ctx.host.Follows N) ls (.operand [] false)
            (⟨before, negative, .call f []⟩ :: outer)
            (.operator inner last) (⟨before, negative, .call f args⟩ :: outer)
  | _, _, _, _, .first hchain, before, negative, outer, f, hk, hn => by
    obtain ⟨inner, last, hlinks, hreads⟩ :=
      hchain.reads hN (⟨before, negative, .call f []⟩ :: outer) (by rw [List.length_cons]; omega)
    exact ⟨inner, last, [], by rw [argument_eq, hlinks]; rfl, hreads⟩
  | _, _, _, _, .next harguments hchain, before, negative, outer, f, hk, hn => by
    obtain ⟨inner, last, args, hargs, hreads⟩ := harguments.reads hN before negative outer (f := f)
      (by omega) hn
    have hlength : args.length + 1 < f.arity.count := by
      rw [← List.length_cons (a := argument inner last), hargs, List.length_reverse,
        harguments.length_eq]
      omega
    obtain ⟨inner', last', hlinks, hreads'⟩ := hchain.reads hN
      (⟨before, negative, .call f (argument inner last :: args)⟩ :: outer)
      (by rw [List.length_cons]; omega)
    refine ⟨inner', last', argument inner last :: args, ?_,
      hreads.append ((reads_comma hlength).append hreads')⟩
    rw [hargs, argument_eq, hlinks, List.reverse_append]
    rfl

end

end Formula.Grammar
