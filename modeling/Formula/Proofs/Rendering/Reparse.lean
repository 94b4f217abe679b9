import Formula.Proofs.Grammar.Reading
import Formula.Proofs.Rendering.Constant
import Formula.Proofs.Rendering.Fragment

/-!
# Entering what was rendered

The text of an expression is read as the expression itself, up to its plain form.  The proof goes
through the expression part by part: `Written strict derives cs` says that the text `cs` of a part
is a fragment, and that the grammar derives its lexemes as what `derives` asks for, at every depth
that has room for the parentheses of the text.

* `Writable.written` — the text of an expression is an operand that stands for its plain form.
* `Writable.parseRaw_chain` — the text of a chain, without the outer parentheses, is read as the
  plain form of the chain.
* `parseRaw_inputText` — the main result: entering what was rendered gives the plain form of the
  expression, whether or not it was grouped by tiers.
-/

set_option autoImplicit false

namespace Formula.Grammar

open Reader Formula.Expr

variable {ctx : Context}

/-! ## Texts of parts -/

/-- The text is that of something that the grammar derives, at every depth that is not less than the
nesting of its parentheses. -/
def Written (strict : Bool) (derives : Nat → List Lexeme → Prop) (cs : List Char) : Prop :=
  ∃ ls k, Fragment strict cs ls k ∧ ∀ n, k ≤ n → derives n ls

theorem unbrace_of_isWordChar {c : Char} (h : Token.isWordChar false c) : unbrace c = c := by
  have hbrace : c ≠ '\x7b' ∧ c ≠ '\x7d' := by constructor <;> rintro rfl <;> revert h <;> decide
  rw [unbrace, if_neg hbrace.1, if_neg hbrace.2]

theorem map_unbrace_of_isWordChar {cs : List Char} (h : ∀ c ∈ cs, Token.isWordChar false c) :
    cs.map unbrace = cs := by
  rw [List.map_congr_left fun c hc ↦ unbrace_of_isWordChar (h c hc), List.map_id']

theorem isWordChar_false_of_isWordChar {strict : Bool} {c : Char}
    (h : Token.isWordChar strict c) : Token.isWordChar false c := by
  cases strict with
  | false => exact h
  | true => simp_all [Token.isWordChar]

theorem unbraced_chain (introduced : Bool) (head : Expr) (links : List Link) :
    (Expr.chain introduced head links).unbraced =
      '(' :: (head.unbraced ++ (renderLinks links).map unbrace) ++ [')'] := by
  have hbraces : unbrace '\x7b' = '(' ∧ unbrace '\x7d' = ')' ∧ unbrace '(' = '(' ∧
      unbrace ')' = ')' := by decide
  cases introduced <;> simp [unbraced, render, hbraces]

theorem map_unbrace_renderLinks (links : List Link) :
    (renderLinks links).map unbrace =
      links.flatMap fun l ↦ ' ' :: l.1.symbol :: ' ' :: l.2.unbraced := by
  have hspace : unbrace ' ' = ' ' := by decide
  have hsymbol : ∀ op : Operator, unbrace op.symbol = op.symbol := by
    intro op
    cases op <;> decide
  simp [renderLinks_eq_flatMap, List.map_flatMap, hspace, hsymbol, unbraced]

theorem map_unbrace_renderArguments (e : Expr) (es : List Expr) :
    (renderArguments (e :: es)).map unbrace =
      e.unbraced ++ es.flatMap fun e ↦ ',' :: ' ' :: e.unbraced := by
  have hcomma : unbrace ',' = ',' ∧ unbrace ' ' = ' ' := by decide
  simp [renderArguments_cons, List.map_flatMap, hcomma, unbraced]

/-! ## Constants -/

/-- The plain form of a constant takes its sign from what is left of it. -/
theorem const_plainForm (s : Bool) (c : Nat) (e : Int) :
    Expr.const (Decimal.finite s c e).plainForm =
      signedNumber (s && c ≠ 0) (Decimal.finite false c e).plainForm := by
  rcases lt_or_ge e 0 with he | he
  · rw [Decimal.plainForm_of_neg he, Decimal.plainForm_of_neg he, signedNumber]
    cases s && decide (c ≠ 0) <;> rfl
  · rw [Decimal.plainForm_of_nonneg he, Decimal.plainForm_of_nonneg he, signedNumber]
    cases s && decide (c ≠ 0) <;> rfl

/-- The digits of a constant are a word, and the word is a number. -/
theorem fragment_plainDigits {dialect : Dialect} {s : Bool} {c : Nat} {e : Int}
    (h : Bounded dialect (.finite s c e)) :
    (Decimal.plainDigits c e).map unbrace = Decimal.plainDigits c e ∧
      Fragment dialect.strict (Decimal.plainDigits c e) [.number (Decimal.plainDigits c e)] 0 := by
  have hword : ∀ x ∈ Decimal.plainDigits c e, Token.isWordChar dialect.strict x := by
    intro x hx
    rcases mem_plainDigits x hx with hx | ⟨hneg, rfl⟩
    · rw [Token.isWordChar, hx, Bool.true_or]
    · have hstrict : dialect.strict = false := by
        rw [← Bool.not_eq_true]
        exact fun hs ↦ absurd (h.1 hs).2 (Int.not_le.2 hneg)
      rw [hstrict]
      decide
  refine ⟨map_unbrace_of_isWordChar fun x hx ↦ isWordChar_false_of_isWordChar (hword x hx), ?_⟩
  obtain ⟨d, ds, hd, hdigit⟩ := exists_cons_plainDigits c e
  rw [hd] at hword ⊢
  have hfragment := Fragment.word hword
  rwa [Token.ofWord, if_neg (not_isAlpha_of_isDigit hdigit)] at hfragment

/-- The text of a constant is its plain notation. -/
theorem unbraced_const {s : Bool} {c : Nat} {e : Int}
    (h : Bounded ctx.dialect (.finite s c e)) :
    (Expr.const (.finite s c e)).unbraced = (Decimal.finite s c e).plain := by
  have hunbrace := (fragment_plainDigits h).1
  have hminus : unbrace '-' = '-' := by decide
  rw [unbraced, render, Decimal.plain]
  split
  · rw [List.map_cons, hunbrace, hminus]
  · exact hunbrace

/-- It is that of a number with its sign, and has no parentheses. -/
theorem exists_operand_plain {s : Bool} {c : Nat} {e : Int}
    (h : Bounded ctx.dialect (.finite s c e)) :
    ∃ ls, Fragment ctx.dialect.strict (Decimal.finite s c e).plain ls 0 ∧
      ∀ n, Operand ctx n ls (.const (Decimal.finite s c e).plainForm) := by
  have hfragment := (fragment_plainDigits h).2
  have hliteral := Literal.plainDigits h
  rw [const_plainForm, Decimal.plain]
  cases hs : s && decide (c ≠ 0) with
  | false =>
    rw [if_neg (by simp)]
    exact ⟨_, hfragment, fun n ↦ .number (.nil _) hliteral⟩
  | true =>
    have hstrict : ctx.dialect.strict = false := by
      rw [← Bool.not_eq_true]
      intro hstrict
      rw [(h.1 hstrict).1] at hs
      cases hs
    have hminus : Signs ctx.dialect ([] ++ [.symbol '-']) true := (Signs.nil _).minus hstrict
    rw [if_pos rfl]
    refine ⟨_, hfragment.cons_symbol (c := '-') (by decide) ?_ (by decide), fun n ↦
      .number hminus hliteral⟩
    rw [hstrict]
    decide

theorem written_const {d : Decimal} (h : Bounded ctx.dialect d) :
    Written ctx.dialect.strict (fun n ls ↦ Operand ctx n ls (.const d.plainForm))
      (Expr.const d).unbraced := by
  cases d with
  | infinity => exact h.elim
  | nan => exact h.elim
  | finite s c e =>
    obtain ⟨ls, hfragment, hoperand⟩ := exists_operand_plain h
    rw [unbraced_const h]
    exact ⟨ls, 0, hfragment, fun n _ ↦ hoperand n⟩

/-! ## Chains and arguments -/

theorem symbol_spec (strict : Bool) (op : Operator) : Token.isGap op.symbol = false ∧
    Token.isWordChar strict op.symbol = false ∧ op.symbol ≠ '(' ∧ op.symbol ≠ ')' := by
  cases op <;> cases strict <;> decide

theorem isWordChar_comma (strict : Bool) : Token.isWordChar strict ',' = false := by
  cases strict <;> decide

theorem isWordChar_space (strict : Bool) : Token.isWordChar strict ' ' = false := by
  cases strict <;> decide

/-- One link after another goes to the end of a chain. -/
theorem written_links {cs : List Char} {head : Expr} {before links : List Link}
    (hcs : Written ctx.dialect.strict (fun n ls ↦ Chain ctx n ls head before) cs)
    (hlinks : ∀ l ∈ links,
      Written ctx.dialect.strict (fun n ls ↦ Operand ctx n ls l.2.plainForm) l.2.unbraced) :
    Written ctx.dialect.strict (fun n ls ↦ Chain ctx n ls head (before ++ plainLinks links))
      (cs ++ (renderLinks links).map unbrace) := by
  induction links generalizing cs before with
  | nil => simpa [plainLinks, renderLinks] using hcs
  | cons l links ih =>
    obtain ⟨op, e⟩ := l
    obtain ⟨ls, k, hfragment, hchain⟩ := hcs
    obtain ⟨ms, m, hfragment', hoperand⟩ := hlinks (op, e) List.mem_cons_self
    obtain ⟨hgap, hword, hparen⟩ := symbol_spec ctx.dialect.strict op
    have hlink : Fragment ctx.dialect.strict (cs ++ ' ' :: op.symbol :: ' ' :: e.unbraced)
        (ls ++ .symbol op.symbol :: ms) (max k m) := by
      refine hfragment.append ?_ (by rintro _ ⟨rfl⟩; exact isWordChar_space _) (by simp)
      exact .cons_gap (by decide)
        (.cons_symbol hgap hword hparen (.cons_gap (by decide) hfragment'))
    have hnext := ih ⟨_, _, hlink, fun n hn ↦
      .link op (hchain n (by omega)) (hoperand n (by omega))⟩
      fun l hl ↦ hlinks l (List.mem_cons_of_mem _ hl)
    rw [map_unbrace_renderLinks] at hnext ⊢
    simpa [plainLinks] using hnext

/-- One argument after another goes to the end of the arguments. -/
theorem written_arguments {cs : List Char} {count : Nat} {before es : List Expr}
    (hcs : Written ctx.dialect.strict (fun n ls ↦ Arguments ctx n count ls before) cs)
    (hes : ∀ e ∈ es,
      Written ctx.dialect.strict (fun n ls ↦ Operand ctx n ls e.plainForm) e.unbraced) :
    Written ctx.dialect.strict
      (fun n ls ↦ Arguments ctx n (count + es.length) ls (before ++ plainArguments es))
      (cs ++ es.flatMap fun e ↦ ',' :: ' ' :: e.unbraced) := by
  induction es generalizing cs count before with
  | nil => simpa [plainArguments] using hcs
  | cons e es ih =>
    obtain ⟨ls, k, hfragment, harguments⟩ := hcs
    obtain ⟨ms, m, hfragment', hoperand⟩ := hes e List.mem_cons_self
    have hnext : Fragment ctx.dialect.strict (cs ++ ',' :: ' ' :: e.unbraced)
        (ls ++ .symbol ',' :: ms) (max k m) := by
      refine hfragment.append ?_ (by rintro _ ⟨rfl⟩; exact isWordChar_comma _) (by simp)
      exact .cons_symbol (by decide) (isWordChar_comma _) (by decide)
        (.cons_gap (by decide) hfragment')
    have hall := ih ⟨_, _, hnext, fun n hn ↦
      .next (harguments n (by omega)) (.single (hoperand n (by omega)))⟩
      fun e hl ↦ hes e (List.mem_cons_of_mem _ hl)
    have hcount : count + (e :: es).length = count + 1 + es.length := by
      rw [List.length_cons]
      omega
    rw [hcount]
    simpa [plainArguments, argumentOf] using hall

/-- The text of a chain without its parentheses. -/
theorem written_chain {head : Expr} {links : List Link}
    (hhead : Written ctx.dialect.strict (fun n ls ↦ Operand ctx n ls head.plainForm) head.unbraced)
    (hlinks : ∀ l ∈ links,
      Written ctx.dialect.strict (fun n ls ↦ Operand ctx n ls l.2.plainForm) l.2.unbraced) :
    Written ctx.dialect.strict (fun n ls ↦ Chain ctx n ls head.plainForm (plainLinks links))
      (head.unbraced ++ (renderLinks links).map unbrace) := by
  obtain ⟨ls, k, hfragment, hoperand⟩ := hhead
  have hfirst : Written ctx.dialect.strict (fun n ls ↦ Chain ctx n ls head.plainForm [])
      head.unbraced := ⟨ls, k, hfragment, fun n hn ↦ .single (hoperand n hn)⟩
  simpa using written_links hfirst hlinks

/-! ## Calls -/

/-- The name of a registered function is a word, and the word is a name. -/
theorem fragment_name {name : String} (h : isName name) :
    name.toList.map unbrace = name.toList ∧ Fragment false name.toList [.name name.toList] 0 := by
  rw [isName] at h
  split at h
  · cases h
  · rename_i c cs hname
    rw [Bool.and_eq_true, List.all_eq_true] at h
    have hword : ∀ d ∈ c :: cs, Token.isWordChar false d := by
      intro d hd
      rcases List.mem_cons.1 hd with rfl | hd
      · simp [Token.isWordChar, h.1]
      · have halnum := h.2 d hd
        rw [Char.isAlphanum, Bool.or_eq_true] at halnum
        rcases halnum with halpha | hdigit
        · simp [Token.isWordChar, halpha]
        · simp [Token.isWordChar, hdigit]
    rw [hname]
    have hfragment := Fragment.word hword
    rw [Token.ofWord, if_pos h.1] at hfragment
    exact ⟨map_unbrace_of_isWordChar hword, hfragment⟩

theorem unbraced_call {f : Declaration} {es : List Expr} (h : isName f.name) :
    (Expr.call f.name f.procedure es).unbraced =
      f.name.toList ++ ('(' :: (renderArguments es).map unbrace ++ [')']) := by
  have hparens : unbrace '(' = '(' ∧ unbrace ')' = ')' := by decide
  simp [unbraced, render, hparens, (fragment_name h).1]

/-- The text of a call, if its function has a name that can be spelled and at least one argument. -/
theorem written_call {f : Declaration} {es : List Expr} (hname : isName f.name)
    (hpos : 1 ≤ f.arity.count) (hstrict : ctx.dialect.strict = false)
    (hf : ctx.functions.lookup? f.name = some f) (hcounted : f.arity.isCounted)
    (hlength : es.length = f.arity.count)
    (hes : ∀ e ∈ es,
      Written ctx.dialect.strict (fun n ls ↦ Operand ctx n ls e.plainForm) e.unbraced) :
    Written ctx.dialect.strict
      (fun n ls ↦ Operand ctx n ls (.call f.name f.procedure (plainArguments es)))
      (Expr.call f.name f.procedure es).unbraced := by
  obtain ⟨e, es, rfl⟩ := List.exists_cons_of_length_pos (by omega : 0 < es.length)
  obtain ⟨ls, k, hfragment, hoperand⟩ := hes e List.mem_cons_self
  have hfirst : Written ctx.dialect.strict (fun n ls ↦ Arguments ctx n 1 ls [e.plainForm])
      e.unbraced := ⟨ls, k, hfragment, fun n hn ↦ .first (.single (hoperand n hn))⟩
  obtain ⟨ls, k, hfragment, harguments⟩ :=
    written_arguments hfirst fun e he ↦ hes e (List.mem_cons_of_mem _ he)
  have hcount : 1 + es.length = f.arity.count := by
    rw [List.length_cons] at hlength
    omega
  rw [hcount] at harguments
  have hcall := hfragment.parens
  rw [hstrict] at hcall
  have hall := (fragment_name hname).2.append hcall (by rintro _ ⟨rfl⟩; decide) (by simp)
  rw [← hstrict, Nat.zero_max] at hall
  rw [unbraced_call hname, map_unbrace_renderArguments]
  refine ⟨_, k + 1, hall, fun n hn ↦ ?_⟩
  obtain ⟨m, rfl⟩ : ∃ m, n = m + 1 := ⟨n - 1, by omega⟩
  have hfound : ctx.functions.lookup? (String.ofList f.name.toList) = some f := by
    rwa [String.ofList_toList]
  exact .call (.nil _) hstrict hfound hcounted (harguments m (by omega))

/-! ## Whole expressions -/

/-- **The text of an expression is an operand that stands for its plain form.** -/
theorem Writable.written {e : Expr} (hfunctions : ctx.functions.WellFormed) (h : Writable ctx e) :
    Written ctx.dialect.strict (fun n ls ↦ Operand ctx n ls e.plainForm) e.unbraced := by
  induction h with
  | const hd => exact written_const hd
  | @chain introduced head links _ _ hhead hlinks =>
    obtain ⟨ls, k, hfragment, hchain⟩ := written_chain hhead hlinks
    rw [unbraced_chain]
    refine ⟨_, k + 1, hfragment.parens, fun n hn ↦ ?_⟩
    obtain ⟨m, rfl⟩ : ∃ m, n = m + 1 := ⟨n - 1, by omega⟩
    exact .group (.nil _) (hchain m (by omega))
  | call hstrict hf hcounted hlength _ hes =>
    obtain ⟨hname, hpos, -⟩ := hfunctions.of_lookup? hf
    exact written_call hname hpos hstrict hf hcounted hlength hes

/-- Grouping a chain leaves a chain. -/
theorem exists_bundle_eq_chain (n : Nat) (introduced : Bool) (head : Expr) (links : List Link) :
    ∃ head' links', bundle n introduced head links = .chain introduced head' links' := by
  induction n with
  | zero => exact ⟨head, links, rfl⟩
  | succ n ih =>
    rw [bundle]
    split
    · exact ⟨_, _, rfl⟩
    · exact ih

/-- The expression of a text can be written, and is a chain. -/
theorem writable_of_parseRaw {text : String} {e : Expr} (hfunctions : ctx.functions.WellFormed)
    (hread : (Parser.parseRaw ctx text).value = .ok (some e)) :
    Writable ctx e ∧ ∃ head links, e = .chain false head links := by
  obtain ⟨-, n, -, hspells⟩ := spells_of_parseRaw (fun d hd ↦ (hfunctions d hd).2.1) hread
  have hwritable := hspells.writable
  obtain ⟨head, links, -, rfl⟩ := hspells
  exact ⟨hwritable, head, links, rfl⟩

theorem inputText_chain (head : Expr) (links : List Link) :
    (Expr.chain false head links).inputText =
      String.ofList (head.unbraced ++ (renderLinks links).map unbrace) := by
  rw [inputText, unbraced_chain, List.cons_append, List.tail_cons, List.dropLast_concat]

/-- A chain that can be written is read from its text. -/
theorem Writable.parseRaw_chain {head : Expr} {links : List Link}
    (hfunctions : ctx.functions.WellFormed) (h : Writable ctx (.chain false head links))
    (hlength : ((Expr.chain false head links).inputText.length : Int) ≤ ctx.dialect.maxLength)
    (hdepth : (nesting 0 (Expr.chain false head links).inputText.toList : Int) ≤
      ctx.dialect.maxDepth) :
    (Parser.parseRaw ctx (Expr.chain false head links).inputText).value =
        .ok (some (Expr.chain false head links).plainForm) ∨
      ¬ ctx.host.Follows (nesting 0 (Expr.chain false head links).inputText.toList) ∧
        (Parser.parseRaw ctx (Expr.chain false head links).inputText).value =
          .error (.rejected .tooDeepToFollow) := by
  cases h with
  | chain hhead hlinks =>
    obtain ⟨ls, k, hfragment, hchain⟩ := written_chain (hhead.written hfunctions)
      fun l hl ↦ (hlinks l hl).written hfunctions
    rw [inputText_chain] at hlength hdepth ⊢
    rw [String.toList_ofList, hfragment.nesting_eq] at hdepth ⊢
    refine Spells.parseRaw hdepth hlength ?_
    rw [hfragment.lexemes_eq]
    exact ⟨_, _, hchain k (Nat.le_refl k), rfl⟩

/-- **What was rendered can be entered again.**  Let `t` be the expression of a text, as it is
written or grouped by tiers.  If its text is not too long and not nested too deeply, then it has an
expression again, which is the plain form of `t`: the constants are in plain form, no chain is
marked as introduced, and nothing else has changed.  Only the host may give up on it, if its
parentheses are nested deeper than the host can follow. -/
theorem parseRaw_inputText {text : String} {e t : Expr} (hfunctions : ctx.functions.WellFormed)
    (hread : (Parser.parseRaw ctx text).value = .ok (some e)) (ht : t = e ∨ t = e.group)
    (hlength : (t.inputText.length : Int) ≤ ctx.dialect.maxLength)
    (hdepth : (nesting 0 t.inputText.toList : Int) ≤ ctx.dialect.maxDepth) :
    (Parser.parseRaw ctx t.inputText).value = .ok (some t.plainForm) ∨
      ¬ ctx.host.Follows (nesting 0 t.inputText.toList) ∧
        (Parser.parseRaw ctx t.inputText).value = .error (.rejected .tooDeepToFollow) := by
  obtain ⟨hwritable, head, links, rfl⟩ := writable_of_parseRaw hfunctions hread
  rcases ht with rfl | rfl
  · exact hwritable.parseRaw_chain hfunctions hlength hdepth
  · obtain ⟨head', links', ht⟩ :=
      exists_bundle_eq_chain 3 false head.group (groupLinks links)
    have hgroup : (Expr.chain false head links).group = .chain false head' links' := ht
    have hwritable' := hwritable.group
    rw [hgroup] at hwritable' hlength hdepth ⊢
    exact hwritable'.parseRaw_chain hfunctions hlength hdepth

/-- `1e2 - 3 * -0` as it is written. -/
def scaledDifference : Expr :=
  .chain false (.const (.finite false 1 2))
    [(.minus, .const (.finite false 3 0)), (.times, .const (.finite true 0 0))]

theorem spells_scaledDifference :
    Spells standardContext 0 (lexemes false "1e2 - 3 * -0") scaledDifference := by
  have hlexemes : lexemes false "1e2 - 3 * -0" =
      (([] ++ [Lexeme.number ['1', 'e', '2']]) ++
          Lexeme.symbol '-' :: ([] ++ [Lexeme.number ['3']])) ++
        Lexeme.symbol '*' :: ([] ++ [Lexeme.symbol '-'] ++ [Lexeme.number ['0']]) := by
    decide +kernel
  have hdigit : ∀ {n : Nat}, n < 10 → Literal standardContext.dialect [Nat.digitChar n]
      (.finite false n 0) := fun hn ↦ .digit (by decide) hn
  have hhundred : Literal standardContext.dialect (['1'] ++ ['e', '2']) (.finite false 1 2) := by
    have hmagnitude : Decimal.magnitude 1 2 = 2 ∧ (Decimal.finite false 1 2).fits = true := by
      decide +kernel
    refine .intro (.whole (by simp) (by simp)) (.some (.inl rfl) (by simp) (by simp))
      rfl rfl (by decide) ?_ (by decide) hmagnitude.2
    rw [hmagnitude.1]
    decide
  have hminus : Signs standardContext.dialect ([] ++ [.symbol '-']) true := (Signs.nil _).minus rfl
  rw [hlexemes]
  exact ⟨_, _, .link .times (.link .minus (.single (.number (.nil _) hhundred))
    (.number (.nil _) (hdigit (show 3 < 10 by decide))))
    (.number hminus (hdigit (show 0 < 10 by decide))), rfl⟩

theorem parseRaw_scaledDifference :
    (Parser.parseRaw standardContext "1e2 - 3 * -0").value = .ok (some scaledDifference) := by
  obtain h | ⟨hdeep, -⟩ := spells_scaledDifference.parseRaw (by decide) (by decide)
  · exact h
  · exact absurd (Host.follows_framed (by decide)) hdeep

/-- An exponent, a zero with a sign, and a product that is grouped. -/
theorem parseRaw_inputText_scaledDifference :
    scaledDifference.group.inputText = "100 - (3 * 0)" ∧
      (Parser.parseRaw standardContext scaledDifference.group.inputText).value =
        .ok (some (.chain false (.const (.finite false 100 0))
          [(.minus, .chain false (.const (.finite false 3 0))
            [(.times, .const (.finite false 0 0))])])) := by
  have htext : scaledDifference.group.inputText = "100 - (3 * 0)" := by decide +kernel
  have hnesting : nesting 0 scaledDifference.group.inputText.toList = 1 := by
    rw [htext]
    decide
  refine ⟨htext, ?_⟩
  obtain h | ⟨hdeep, -⟩ := parseRaw_inputText (Registry.wellFormed_builtins _)
    parseRaw_scaledDifference (.inr rfl) (by rw [htext]; decide) (by rw [hnesting]; decide)
  · exact h
  · rw [hnesting] at hdeep
    exact absurd (Host.follows_framed (by decide)) hdeep

end Formula.Grammar
