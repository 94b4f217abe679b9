import Formula.Proofs.Binding
import Formula.Proofs.Grammar.Nesting
import Formula.Proofs.Precedence.Phrases
import Formula.Proofs.Rendering.Calculate

/-!
# Signs and parentheses that change nothing

A sign is read in two ways: it changes the sign of a number, and it multiplies a group or a call by
`-1`.  Parentheses add a chain, and around a single argument they do not even do that.  All of this
comes to the same.  An operand may be put in parentheses, with its signs or without them, and its
signs may be replaced by others with the same parity of minus signs; the expression is another one
then, but its value is the same decimal, or its failure the same failure.

* `RewritesChain ctx ls ls'` — the lexemes `ls'` are `ls` with one operand rewritten in this way, at
  any depth.
* `Operand.exists_signs_append` — what signs in front of an operand do, whatever kind it is of.
* `RewritesChain.alike` — the rewritten lexemes spell a chain again, whose operands are worth what
  they were.
* `Calculator.eval_rewritten` — the main result, about texts.
-/

set_option autoImplicit false

namespace Formula

open Reader Formula.Expr

namespace Grammar

/-! ## Rewriting an operand -/

section

variable (ctx : Context)

mutual

/-- The same operand with another pair of parentheses, around it or between its signs, or with other
signs of the same parity; or the operand with such a change to an operand inside of it. -/
inductive RewritesOperand : List Lexeme → List Lexeme → Prop
  | enclose {n : Nat} {ss ls : List Lexeme} {negative : Bool} {e : Expr} :
      Signs ctx.dialect ss negative → Operand ctx n ls e →
      RewritesOperand (ss ++ ls) (ss ++ .symbol '(' :: ls ++ [.symbol ')'])
  | resign {n : Nat} {ss ss' ls : List Lexeme} {negative : Bool} {e : Expr} :
      Signs ctx.dialect ss negative → Signs ctx.dialect ss' negative → Operand ctx n ls e →
      RewritesOperand (ss ++ ls) (ss' ++ ls)
  | group {ss ls ls' : List Lexeme} {negative : Bool} :
      Signs ctx.dialect ss negative → RewritesChain ls ls' →
      RewritesOperand (ss ++ .symbol '(' :: ls ++ [.symbol ')'])
        (ss ++ .symbol '(' :: ls' ++ [.symbol ')'])
  | call {ss ls ls' : List Lexeme} {negative : Bool} {name : List Char} {f : Declaration} :
      Signs ctx.dialect ss negative → ctx.dialect.strict = false →
      ctx.functions.lookup? (String.ofList name) = some f → f.arity.isCounted →
      RewritesArguments f.arity.count ls ls' →
      RewritesOperand (ss ++ .name name :: .symbol '(' :: ls ++ [.symbol ')'])
        (ss ++ .name name :: .symbol '(' :: ls' ++ [.symbol ')'])

/-- A chain with one operand rewritten. -/
inductive RewritesChain : List Lexeme → List Lexeme → Prop
  | single {ls ls' : List Lexeme} : RewritesOperand ls ls' → RewritesChain ls ls'
  | before {n : Nat} {ls ls' ms : List Lexeme} {e : Expr} (op : Operator) :
      RewritesChain ls ls' → Operand ctx n ms e →
      RewritesChain (ls ++ .symbol op.symbol :: ms) (ls' ++ .symbol op.symbol :: ms)
  | after {n : Nat} {ls ms ms' : List Lexeme} {head : Expr} {links : List Link} (op : Operator) :
      Chain ctx n ls head links → RewritesOperand ms ms' →
      RewritesChain (ls ++ .symbol op.symbol :: ms) (ls ++ .symbol op.symbol :: ms')

/-- Arguments with one operand rewritten. -/
inductive RewritesArguments : Nat → List Lexeme → List Lexeme → Prop
  | first {ls ls' : List Lexeme} : RewritesChain ls ls' → RewritesArguments 1 ls ls'
  | before {n k : Nat} {ls ls' ms : List Lexeme} {head : Expr} {links : List Link} :
      RewritesArguments k ls ls' → Chain ctx n ms head links →
      RewritesArguments (k + 1) (ls ++ .symbol ',' :: ms) (ls' ++ .symbol ',' :: ms)
  | after {n k : Nat} {ls ms ms' : List Lexeme} {es : List Expr} :
      Arguments ctx n k ls es → RewritesChain ms ms' →
      RewritesArguments (k + 1) (ls ++ .symbol ',' :: ms) (ls ++ .symbol ',' :: ms')

end

end

/-! ## Signs in front of an operand -/

variable {ctx : Context} {ar : Arithmetic}

theorem Signs.append {dialect : Dialect} {ss ts : List Lexeme} {s t : Bool}
    (h : Signs dialect ss s) (h' : Signs dialect ts t) : Signs dialect (ss ++ ts) (s != t) := by
  refine ⟨fun l hl ↦ (List.mem_append.1 hl).elim (h.mem l) (h'.mem l), ?_⟩
  rw [h.odd, h'.odd, List.count_append]
  generalize ss.count (.symbol '-') = m
  generalize ts.count (.symbol '-') = n
  rcases Nat.mod_two_eq_zero_or_one m with hm | hm <;>
    rcases Nat.mod_two_eq_zero_or_one n with hn | hn <;> simp [hm, hn, Nat.add_mod]

/-- Two signs in front of an outcome are one. -/
theorem signed_outcome_signed (s t : Bool) (x : Outcome) :
    Outcome.signed s (Outcome.signed t x) = Outcome.signed (s != t) x := by
  cases s <;> cases t <;> cases x <;> simp [Outcome.signed, Except.map, Decimal.negate_negate]

theorem worth_signedNumber (negative : Bool) (d : Decimal) (scale : Int) :
    worth ar (signedNumber negative d) scale = Outcome.signed negative (.ok d) := by
  cases negative <;> rfl

/-- **Signs in front of an operand are signs in front of what it is worth**, whether it is a number,
a group or a call, and whether or not it has signs of its own. -/
theorem Operand.exists_signs_append {n : Nat} {ss ls : List Lexeme} {negative : Bool} {e : Expr}
    (h : Operand ctx n ls e) (ar : Arithmetic) (hsigns : Signs ctx.dialect ss negative) :
    ∃ e', Operand ctx n (ss ++ ls) e' ∧
      ∀ scale, worth ar e' scale = Outcome.signed negative (worth ar e scale) := by
  cases h with
  | number hsigns' hliteral =>
    have hnumber : Operand ctx n _ _ := .number (hsigns.append hsigns') hliteral
    rw [List.append_assoc] at hnumber
    refine ⟨_, hnumber, fun scale ↦ ?_⟩
    rw [worth_signedNumber, worth_signedNumber, signed_outcome_signed]
  | @group _ ts _ _ _ _ hsigns' hchain =>
    have hgroup := Operand.group (hsigns.append hsigns') hchain
    rw [List.append_assoc, List.append_assoc, ← List.append_assoc ts] at hgroup
    refine ⟨_, hgroup, fun scale ↦ ?_⟩
    rw [worth_signed, worth_signed, signed_outcome_signed]
  | @call _ ts _ _ _ _ _ hsigns' hstrict hf hcounted harguments =>
    have hcall := Operand.call (hsigns.append hsigns') hstrict hf hcounted harguments
    rw [List.append_assoc, List.append_assoc, ← List.append_assoc ts] at hcall
    refine ⟨_, hcall, fun scale ↦ ?_⟩
    rw [worth_signed, worth_signed, signed_outcome_signed]

/-! ## Rewritten lexemes -/

section

variable (ctx ar)

/-- Both spell operands, which are worth the same at every scale. -/
def AlikeOperands (ls ls' : List Lexeme) : Prop :=
  ∃ n e n' e', Operand ctx n ls e ∧ Operand ctx n' ls' e' ∧
    ∀ scale, worth ar e scale = worth ar e' scale

/-- Both spell chains with the same operators, whose operands are worth the same. -/
def AlikeChains (ls ls' : List Lexeme) : Prop :=
  ∃ n head links n' head' links', Chain ctx n ls head links ∧ Chain ctx n' ls' head' links' ∧
    ∀ scale, worth ar head scale = worth ar head' scale ∧
      worthLinks ar links scale = worthLinks ar links' scale

/-- Both spell arguments that are worth the same. -/
def AlikeArguments (k : Nat) (ls ls' : List Lexeme) : Prop :=
  ∃ n es n' es', Arguments ctx n k ls es ∧ Arguments ctx n' k ls' es' ∧
    es.map (worth ar) = es'.map (worth ar)

end

theorem worth_chain_congr {introduced introduced' : Bool} {head head' : Expr}
    {links links' : List Link} {scale : Int} (h : worth ar head scale = worth ar head' scale)
    (h' : worthLinks ar links scale = worthLinks ar links' scale) :
    worth ar (.chain introduced head links) scale =
      worth ar (.chain introduced' head' links') scale := by
  rw [worth, worth, h, h']

/-- The argument that a chain stands for is worth what the chain is. -/
theorem worth_argumentOf (head : Expr) (links : List Link) (scale : Int) :
    worth ar (argumentOf head links) scale = worth ar (.chain false head links) scale := by
  rw [argumentOf]
  split
  · rename_i h
    rw [h, worth_single]
  · rfl

theorem map_value_worthArguments (es : List Expr) :
    (worthArguments ar es).map Argument.value = es.map (worth ar) := by
  induction es with
  | nil => rfl
  | cons e es ih => rw [worthArguments, List.map_cons, List.map_cons, ih]

theorem worth_call_congr {name : String} {p : Procedure} (hp : p.ByValue) {es es' : List Expr}
    (h : es.map (worth ar) = es'.map (worth ar)) (scale : Int) :
    worth ar (.call name p es) scale = worth ar (.call name p es') scale := by
  rw [← map_value_worthArguments, ← map_value_worthArguments] at h
  rw [worth, worth, hp _ _ h]

theorem worth_argumentOf_congr {head head' : Expr} {links links' : List Link}
    (h : ∀ scale, worth ar head scale = worth ar head' scale ∧
      worthLinks ar links scale = worthLinks ar links' scale) :
    worth ar (argumentOf head links) = worth ar (argumentOf head' links') := by
  funext scale
  rw [worth_argumentOf, worth_argumentOf, worth_chain_congr (h scale).1 (h scale).2]

theorem AlikeOperands.signed_group {ss ls ls' : List Lexeme} {negative : Bool}
    (hsigns : Signs ctx.dialect ss negative) (h : AlikeChains ctx ar ls ls') :
    AlikeOperands ctx ar (ss ++ .symbol '(' :: ls ++ [.symbol ')'])
      (ss ++ .symbol '(' :: ls' ++ [.symbol ')']) := by
  obtain ⟨n, head, links, n', head', links', hchain, hchain', hworth⟩ := h
  refine ⟨_, _, _, _, .group hsigns hchain, .group hsigns hchain', fun scale ↦ ?_⟩
  rw [worth_signed, worth_signed, worth_chain_congr (hworth scale).1 (hworth scale).2]

/-- One more operand at the end of two chains. -/
theorem AlikeChains.link {ls ls' ms ms' : List Lexeme} (op : Operator)
    (h : AlikeChains ctx ar ls ls') (h' : AlikeOperands ctx ar ms ms') :
    AlikeChains ctx ar (ls ++ .symbol op.symbol :: ms) (ls' ++ .symbol op.symbol :: ms') := by
  obtain ⟨n, head, links, n', head', links', hchain, hchain', hworth⟩ := h
  obtain ⟨m, e, m', e', hoperand, hoperand', hworth'⟩ := h'
  refine ⟨max n m, head, links ++ [(op, e)], max n' m', head', links' ++ [(op, e')],
    .link op (hchain.mono (Nat.le_max_left n m)) (hoperand.mono (Nat.le_max_right n m)),
    .link op (hchain'.mono (Nat.le_max_left n' m')) (hoperand'.mono (Nat.le_max_right n' m')),
    fun scale ↦ ⟨(hworth scale).1, ?_⟩⟩
  rw [worthLinks_append, worthLinks_append, (hworth scale).2, worthLinks, worthLinks, hworth' scale]
  rfl

/-- One more argument after the others. -/
theorem AlikeArguments.next {k : Nat} {ls ls' ms ms' : List Lexeme}
    (h : AlikeArguments ctx ar k ls ls') (h' : AlikeChains ctx ar ms ms') :
    AlikeArguments ctx ar (k + 1) (ls ++ .symbol ',' :: ms) (ls' ++ .symbol ',' :: ms') := by
  obtain ⟨n, es, n', es', harguments, harguments', hvalues⟩ := h
  obtain ⟨m, head, links, m', head', links', hchain, hchain', hworth⟩ := h'
  refine ⟨max n m, _, max n' m', _,
    .next (harguments.mono (Nat.le_max_left n m)) (hchain.mono (Nat.le_max_right n m)),
    .next (harguments'.mono (Nat.le_max_left n' m')) (hchain'.mono (Nat.le_max_right n' m')), ?_⟩
  rw [List.map_append, List.map_append, hvalues, List.map_singleton, List.map_singleton,
    worth_argumentOf_congr hworth]

theorem AlikeOperands.refl {n : Nat} {ls : List Lexeme} {e : Expr} (h : Operand ctx n ls e) :
    AlikeOperands ctx ar ls ls := ⟨n, e, n, e, h, h, fun _ ↦ rfl⟩

theorem AlikeChains.refl {n : Nat} {ls : List Lexeme} {head : Expr} {links : List Link}
    (h : Chain ctx n ls head links) : AlikeChains ctx ar ls ls :=
  ⟨n, head, links, n, head, links, h, h, fun _ ↦ ⟨rfl, rfl⟩⟩

theorem AlikeArguments.refl {n k : Nat} {ls : List Lexeme} {es : List Expr}
    (h : Arguments ctx n k ls es) : AlikeArguments ctx ar k ls ls := ⟨n, es, n, es, h, h, rfl⟩

mutual

-- The induction is on the rewriting.  Only where an operand is rewritten itself there is anything
-- to say about signs and parentheses; all other rules carry the agreement to the outside.

/-- **Rewriting an operand keeps what it is worth.** -/
theorem RewritesOperand.alike (hvalues : ∀ d ∈ ctx.functions.declarations, d.procedure.ByValue) :
    ∀ {ls ls' : List Lexeme}, RewritesOperand ctx ls ls' → AlikeOperands ctx ar ls ls'
  | _, _, .enclose hsigns hoperand => by
    obtain ⟨e, hwhole, hworth⟩ := hoperand.exists_signs_append ar hsigns
    refine ⟨_, _, _, _, hwhole, .group hsigns (.single hoperand), fun scale ↦ ?_⟩
    rw [hworth, worth_signed, worth_single]
  | _, _, .resign hsigns hsigns' hoperand => by
    obtain ⟨e, hwhole, hworth⟩ := hoperand.exists_signs_append ar hsigns
    obtain ⟨e', hwhole', hworth'⟩ := hoperand.exists_signs_append ar hsigns'
    exact ⟨_, _, _, _, hwhole, hwhole', fun scale ↦ (hworth scale).trans (hworth' scale).symm⟩
  | _, _, .group hsigns hchain => .signed_group hsigns (hchain.alike hvalues)
  | _, _, .call hsigns hstrict hf hcounted harguments => by
    obtain ⟨n, es, n', es', hgiven, hgiven', hequal⟩ := harguments.alike hvalues
    refine ⟨_, _, _, _, .call hsigns hstrict hf hcounted hgiven,
      .call hsigns hstrict hf hcounted hgiven', fun scale ↦ ?_⟩
    rw [worth_signed, worth_signed,
      worth_call_congr (hvalues _ (List.mem_of_find?_eq_some hf)) hequal]

theorem RewritesChain.alike (hvalues : ∀ d ∈ ctx.functions.declarations, d.procedure.ByValue) :
    ∀ {ls ls' : List Lexeme}, RewritesChain ctx ls ls' → AlikeChains ctx ar ls ls'
  | _, _, .single hoperand => by
    obtain ⟨n, e, n', e', hone, hone', hworth⟩ := hoperand.alike hvalues
    exact ⟨n, e, [], n', e', [], .single hone, .single hone', fun scale ↦ ⟨hworth scale, rfl⟩⟩
  | _, _, .before op hchain hoperand => (hchain.alike hvalues).link op (.refl hoperand)
  | _, _, .after op hchain hoperand =>
    (AlikeChains.refl hchain).link op (hoperand.alike hvalues)

theorem RewritesArguments.alike
    (hvalues : ∀ d ∈ ctx.functions.declarations, d.procedure.ByValue) :
    ∀ {k : Nat} {ls ls' : List Lexeme}, RewritesArguments ctx k ls ls' →
      AlikeArguments ctx ar k ls ls'
  | _, _, _, .first hchain => by
    obtain ⟨n, head, links, n', head', links', hone, hone', hworth⟩ :=
      hchain.alike hvalues
    refine ⟨n, _, n', _, .first hone, .first hone', ?_⟩
    rw [List.map_singleton, List.map_singleton, worth_argumentOf_congr hworth]
  | _, _, _, .before harguments hchain => (harguments.alike hvalues).next (.refl hchain)
  | _, _, _, .after harguments hchain =>
    (AlikeArguments.refl harguments).next (hchain.alike hvalues)

end

end Grammar

/-! ## Functions that only ask for values -/

namespace Expr

mutual

/-- Whether an expression only asks for values is a matter of its calls. -/
theorem byValue_of_calls : ∀ e : Expr, (∀ b ∈ e.calls, b.procedure.ByValue) → e.ByValue
  | const _, _ => trivial
  | chain _ head links, h =>
    ⟨byValue_of_calls head fun b hb ↦ h b (List.mem_append_left _ hb),
      linksByValue_of_calls links fun b hb ↦ h b (List.mem_append_right _ hb)⟩
  | call name p arguments, h =>
    ⟨h ⟨name, p, arguments.length⟩ List.mem_cons_self,
      argumentsByValue_of_calls arguments fun b hb ↦ h b (List.mem_cons_of_mem _ hb)⟩

theorem linksByValue_of_calls : ∀ links : List Link,
    (∀ b ∈ callsOfLinks links, b.procedure.ByValue) → LinksByValue links
  | [], _ => trivial
  | (_, e) :: links, h =>
    ⟨byValue_of_calls e fun b hb ↦ h b (List.mem_append_left _ hb),
      linksByValue_of_calls links fun b hb ↦ h b (List.mem_append_right _ hb)⟩

theorem argumentsByValue_of_calls : ∀ es : List Expr,
    (∀ b ∈ callsOfArguments es, b.procedure.ByValue) → ArgumentsByValue es
  | [], _ => trivial
  | e :: es, h =>
    ⟨byValue_of_calls e fun b hb ↦ h b (List.mem_append_left _ hb),
      argumentsByValue_of_calls es fun b hb ↦ h b (List.mem_append_right _ hb)⟩

end

end Expr

/-! ## Texts -/

namespace Calculator

open Grammar

variable {c : Calculator} {text text' : String}

/-- What is read is worth what it comes to. -/
theorem eval_eq_worth (hfunctions : c.functions.WellFormed)
    (hvalues : ∀ d ∈ c.functions.declarations, d.procedure.ByValue) {raw : Expr}
    (h : (c.parse (some text)).value = .ok (some raw.group)) (scale : Int) :
    eval c.arithmetic raw.group scale = worth c.arithmetic raw scale := by
  refine worth_eq_eval_group _ _ (byValue_of_calls _ fun b hb ↦ ?_) _
  rw [← calls_group] at hb
  obtain ⟨d, hd, rfl⟩ := exists_declaration_of_parse hfunctions h b hb
  exact hvalues d hd

/-- A text that is spelled by the grammar is read if its parentheses are not nested too deeply. -/
theorem parseRaw_of_nesting {n : Nat} {e : Expr}
    (h : Spells c.context n (lexemes c.dialect.strict text) e)
    (hlength : (text.length : Int) ≤ c.dialect.maxLength)
    (hdepth : (nesting 0 text.toList : Int) ≤ c.dialect.maxDepth) :
    (c.parseRaw (some text)).value = .ok (some e) ∨ ¬ c.host.Follows (nesting 0 text.toList) ∧
      (c.parseRaw (some text)).value = .error (.rejected .tooDeepToFollow) := by
  rw [parseRaw, if_neg (by simp [isBlank_eq_false_of_spells h])]
  exact h.tight.parseRaw hdepth hlength

/-- **A rewritten text comes to the same**, if the functions only ask for values: it is read within
the limits, as long as the host has room for it, and its expression has the value of the other one,
or its failure, at every scale. -/
theorem parse_rewritten (hfunctions : c.functions.WellFormed)
    (hvalues : ∀ d ∈ c.functions.declarations, d.procedure.ByValue) {e : Expr}
    (he : (c.parse (some text)).value = .ok (some e))
    (h : RewritesChain c.context (lexemes c.dialect.strict text) (lexemes c.dialect.strict text'))
    (hlength : (text'.length : Int) ≤ c.dialect.maxLength)
    (hdepth : (nesting 0 text'.toList : Int) ≤ c.dialect.maxDepth) :
    (∃ e', (c.parse (some text')).value = .ok (some e') ∧
        ∀ scale, eval c.arithmetic e' scale = eval c.arithmetic e scale) ∨
      (¬ c.host.Follows (nesting 0 text'.toList) ∧
        (c.parse (some text')).value = .error (.rejected .tooDeepToFollow)) ∨
      ∃ x, (c.parse (some text')).value = .error (.exhausted x) := by
  obtain ⟨raw, hraw, -, rfl⟩ := parse_eq_some_iff.1 he
  have halike : AlikeChains c.context c.arithmetic _ _ := h.alike hvalues
  obtain ⟨n, head, links, n', head', links', hchain, hchain', hworth⟩ := halike
  -- the expression of the text is the chain that the lexemes are known to spell
  have hspells : Spells c.context n (lexemes c.dialect.strict text) (.chain false head links) :=
    ⟨head, links, hchain, rfl⟩
  obtain rfl : raw = .chain false head links := by
    obtain ⟨htext, k, hk, hread⟩ := spells_of_parseRaw (fun d hd ↦ (hfunctions d hd).2.1)
      (parseRaw_of_calculator hraw).2
    have hnesting : (nesting 0 text.toList : Int) ≤ c.dialect.maxDepth :=
      (Int.ofNat_le.2 hread.nesting_le).trans hk
    obtain hsame | ⟨-, hdeep⟩ := parseRaw_of_nesting hspells htext hnesting
    · cases hraw.symm.trans hsame
      rfl
    · cases hraw.symm.trans hdeep
  have hspells' : Spells c.context n' (lexemes c.dialect.strict text')
      (.chain false head' links') :=
    ⟨head', links', hchain', rfl⟩
  obtain hraw' | ⟨hdeep, hraw'⟩ := parseRaw_of_nesting hspells' hlength hdepth
  · cases hx : c.host.groupingFault? (.chain false head' links') with
    | some x => exact .inr (.inr ⟨x, parse_eq_exhausted_iff.2 ⟨_, hraw', hx⟩⟩)
    | none =>
      have he' := parse_eq_some_iff.2 ⟨_, hraw', hx, rfl⟩
      refine .inl ⟨_, he', fun scale ↦ ?_⟩
      rw [eval_eq_worth hfunctions hvalues he', eval_eq_worth hfunctions hvalues he]
      exact (worth_chain_congr (hworth scale).1 (hworth scale).2).symm
  · exact .inr (.inl ⟨hdeep, parse_eq_rejected_iff.2 hraw'⟩)

/-- **Signs and redundant parentheses are neutral.**  Let a text be accepted by a standard
calculator, and let another text, within the limits for length and nesting, have the same lexemes
but for one operand at any depth, which stands in one more pair of parentheses, around its signs or
inside of them, or has other signs with the same parity of minus signs.  Then it is accepted as
well, and comes to the same decimal or the same failure at every scale.  (Only the host may give up
on it, if its parentheses are nested deeper than the host can follow, or if there is no room to
group its expression.)  So a sign in front of a number, a group or a call binds tighter than every
operator.  The outputs are the same too, if the host has room for both texts. -/
theorem eval_rewritten {settings : Settings} {host : Host} {scale : Value}
    (hc : standard settings host scale false = .ok c) {e : Expr}
    (he : (c.parse (some text)).value = .ok (some e))
    (h : RewritesChain c.context (lexemes false text) (lexemes false text'))
    (hlength : (text'.length : Int) ≤ settings.maxInputLength)
    (hdepth : (nesting 0 text'.toList : Int) ≤ settings.maxNestingDepth) :
    (∃ e', (c.parse (some text')).value = .ok (some e') ∧
        (∀ s, eval c.arithmetic e' s = eval c.arithmetic e s) ∧
        (c.Fits text → c.Fits text' →
          (c.calculate (some text')).value = (c.calculate (some text)).value)) ∨
      (¬ c.host.Follows (nesting 0 text'.toList) ∧
        (c.parse (some text')).value = .error (.rejected .tooDeepToFollow)) ∨
      ∃ x, (c.parse (some text')).value = .error (.exhausted x) := by
  obtain ⟨-, hbuiltins, hdialect, -⟩ := standard_spec hc
  have hvalues : ∀ d ∈ c.functions.declarations, d.procedure.ByValue := by
    rw [hbuiltins]
    exact (eval_group c.arithmetic).1
  have hstrict : c.dialect.strict = false := by rw [hdialect]
  rw [← hstrict] at h
  obtain ⟨e', he', heval⟩ | hroom := parse_rewritten (wellFormed_of_standard hc) hvalues he h
    (by rw [hdialect]; exact hlength) (by rw [hdialect]; exact hdepth)
  · refine .inl ⟨e', he', heval, fun hfits hfits' ↦ ?_⟩
    rw [calculate_of_parse he', calculate_of_parse he, valueOf_eq_eval (hfits'.shows e' he'),
      valueOf_eq_eval (hfits.shows e he), heval]
  · exact .inr hroom

/-- The square of `-2`, without parentheses. -/
def minusTwoSquared : Expr :=
  .chain false (.const (.finite true 2 0)) [(.power, .const (.finite false 2 0))]

theorem operand_minusTwo (depth : Nat) :
    Operand (standardOn .native).context depth ([Lexeme.symbol '-'] ++ [Lexeme.number ['2']])
      (.const (.finite true 2 0)) :=
  .number (Signs.minus (.nil _) rfl) (.digit (by decide) (show 2 < 10 by decide))

theorem operand_two (depth : Nat) :
    Operand (standardOn .native).context depth [Lexeme.number ['2']] (.const (.finite false 2 0)) :=
  .digit (by decide) depth (show 2 < 10 by decide)

theorem lexemes_minusTwoSquared : lexemes false "-2 ^ 2" =
    ([Lexeme.symbol '-'] ++ [Lexeme.number ['2']]) ++
      Lexeme.symbol '^' :: [Lexeme.number ['2']] := by
  decide +kernel

theorem parse_minusTwoSquared :
    ((standardOn .native).parse (some "-2 ^ 2")).value = .ok (some minusTwoSquared) := by
  have hspells : Spells (standardOn .native).context 0 (lexemes false "-2 ^ 2")
      minusTwoSquared := by
    rw [lexemes_minusTwoSquared]
    exact ⟨_, _, .link .power (.single (operand_minusTwo 0)) (operand_two 0), rfl⟩
  have hfits := fits_standardOn_native "-2 ^ 2"
  exact hfits.parse_of_parseRaw (hfits.parseRaw_of_spells (by decide) (by decide) hspells)

/-- A sign binds tighter than the power: `-2 ^ 2` comes to the same as `(-2) ^ 2`. -/
theorem eval_rewritten_minusTwoSquared :
    standard .standard .native .null false = .ok (standardOn .native) ∧
      ((standardOn .native).parse (some "-2 ^ 2")).value = .ok (some minusTwoSquared) ∧
      RewritesChain (standardOn .native).context (lexemes false "-2 ^ 2")
        (lexemes false "(-2) ^ 2") ∧
      ∃ e', ((standardOn .native).parse (some "(-2) ^ 2")).value = .ok (some e') ∧
        (∀ s, eval (standardOn .native).arithmetic e' s =
          eval (standardOn .native).arithmetic minusTwoSquared s) ∧
        ((standardOn .native).calculate (some "(-2) ^ 2")).value =
          ((standardOn .native).calculate (some "-2 ^ 2")).value := by
  have hlexemes : lexemes false "(-2) ^ 2" =
      ([] ++ Lexeme.symbol '(' :: ([Lexeme.symbol '-'] ++ [Lexeme.number ['2']]) ++
        [Lexeme.symbol ')']) ++ Lexeme.symbol '^' :: [Lexeme.number ['2']] := by
    decide +kernel
  have hrewrites : RewritesChain (standardOn .native).context (lexemes false "-2 ^ 2")
      (lexemes false "(-2) ^ 2") := by
    rw [lexemes_minusTwoSquared, hlexemes]
    exact .before .power (.single (.enclose (.nil _) (operand_minusTwo 0))) (operand_two 0)
  have hfits := fits_standardOn_native "(-2) ^ 2"
  obtain ⟨e', he', heval, hcalculate⟩ | ⟨-, hdeep⟩ | ⟨x, hx⟩ := eval_rewritten
    (standard_eq .native) parse_minusTwoSquared hrewrites (by decide) (by decide)
  · exact ⟨standard_eq .native, parse_minusTwoSquared, hrewrites, e', he', heval,
      hcalculate (fits_standardOn_native _) hfits⟩
  · exact absurd (parse_eq_rejected_iff.1 hdeep) hfits.reads
  · exact absurd hx (hfits.parse_ne_exhausted x)

end Calculator

end Formula
