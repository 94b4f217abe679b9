import Formula.Proofs.Grammar.Complaints
import Formula.Proofs.Grammar.Descent
import Formula.Proofs.Grammar.Reading

/-!
# The descent and the reader agree

A descent into a chain corresponds to a part of a reading: from a place in the chain to the token
that closes it.  What the reading does after that token is not the business of the loop, but of
whoever called it.  So the two are compared by what is left: `complete ctx s ts` is what comes of
the whole reading that goes on from the state `s` with the tokens `ts`, and it is the same before
and after the part that the loop has taken (`Agrees`).

The variables of the loop say the same as the place of the reader (`Follows`): there is a head as
soon as there was an operand, and an operator is pending whenever one has to be linked.  This is the
invariant that excludes the faults of the loop.  That the arguments are as many as the arity is the
invariant of `arguments`, where the ones that have been read are those of the level.

* `Simulates ctx n` — the agreement on less than `n` tokens.  The lemmas of the simulation take one
  token each, and leave the rest to it.
* `parse_eq` — the main result: the descent into a text does what the parser does.
-/

set_option autoImplicit false

namespace Formula.Descent

open Reader

variable {ctx : Context}

/-! ## Readings up to the end -/

variable (ctx) in
/-- What comes of a reading that goes on with these tokens, up to the end among them. -/
def complete (s : State) : List Token → Except Halt Expr
  | [] => .error (.fault .exhausted)
  | t :: ts =>
    if t.lexeme = .finish then s.finish.mapError fun stop ↦ .unreadable stop.unreadable
    else match s.read ctx t with
      | .error stop => .error (.unreadable stop.unreadable)
      | .ok s' => complete s' ts

variable (ctx) in
/-- What comes of it after one step of the reading. -/
def proceed (r : Except Stop State) (ts : List Token) : Except Halt Expr :=
  match r with
  | .error stop => .error (.unreadable stop.unreadable)
  | .ok s => complete ctx s ts

theorem complete_cons {s : State} {t : Token} (ht : t.lexeme ≠ .finish) (ts : List Token) :
    complete ctx s (t :: ts) = proceed ctx (s.read ctx t) ts := by
  rw [complete, if_neg ht]
  rfl

theorem complete_finish {s : State} {t : Token} (ht : t.lexeme = .finish) (ts : List Token) :
    complete ctx s (t :: ts) = s.finish.mapError fun stop ↦ .unreadable stop.unreadable := by
  rw [complete, if_pos ht]

/-- With the token at the end, it is what a caller learns from the reading. -/
theorem complete_append_finish {ts : List Token} (hts : ∀ t ∈ ts, t.lexeme ≠ .finish) (s : State)
    (t : Token) (ht : t.lexeme = .finish) (us : List Token) :
    complete ctx s (ts ++ t :: us) = (outcome ctx s ts).mapError .unreadable := by
  induction ts generalizing s with
  | nil =>
    rw [List.nil_append, complete_finish ht]
    show _ = (s.finish.mapError _).mapError _
    cases s.finish <;> rfl
  | cons t' ts ih =>
    have ht' := hts t' List.mem_cons_self
    have ih := ih fun u hu ↦ hts u (List.mem_cons_of_mem _ hu)
    rw [List.cons_append, complete_cons ht', outcome, run_cons]
    cases s.read ctx t' with
    | error stop => rfl
    | ok s' => exact ih s'

/-! ## Loops and places -/

/-- The symbols that close the innermost level. -/
def closers : List Level → List Char
  | [] => []
  | level :: _ => match level.opening with
    | .group => [')']
    | .call _ _ => [',', ')']

/-- The variables of the loop say the same as the place of a reader. -/
inductive Follows : Place → Progress → Prop
  | first (negative : Bool) : Follows (.operand [] negative) ⟨none, [], none, negative, true⟩
  | next (before : Before) (e : Expr) (op : Operator) (negative : Bool) :
    Follows (.operand ((e, op) :: before) negative)
      ⟨some (links before e []).1, (links before e []).2, some op, negative, true⟩
  | after (before : Before) (last : Expr) (pending : Option Operator) :
    Follows (.operator before last)
      ⟨some (links before last []).1, (links before last []).2, pending, false, false⟩

/-- An operand can be added where one has to come. -/
theorem Follows.add {before : Before} {negative : Bool} {v : Progress}
    (h : Follows (.operand before negative) v) (e : Expr) :
    ∃ v', v.add e = .ok v' ∧ Follows (.operator before e) v' := by
  cases h with
  | first => exact ⟨_, rfl, .after [] e none⟩
  | next before last op =>
    have h := Follows.after ((last, op) :: before) e (some op)
    rw [Grammar.links_cons] at h
    exact ⟨_, rfl, h⟩

/-- The lexeme with which a chain ends. -/
def closing : Option Char → Lexeme
  | none => .finish
  | some c => .symbol c

/-- A chain is closed at the outermost level by the end of the text, and at any other by one of the
closers. -/
def Closes (outer : List Level) (closer : Option Char) : Prop :=
  match outer with
  | [] => closer = none
  | _ :: _ => ∃ c ∈ closers outer, closer = some c

/-- A descent into a chain and a reading that comes to `whole` agree: the descent halts where the
reading does, or the reading gets after the last operand of the chain, before the closer. -/
inductive Agrees (ctx : Context) (outer : List Level) (whole : Except Halt Expr) {n : Nat} :
    Except Halt (Parsed Chain n) → Prop
  | halts {h : Halt} : whole = .error h → Agrees ctx outer whole (.error h)
  | arrives {p : Parsed Chain n} {before : Before} {last : Expr} {closings : List Char}
      {t : Token} :
      links before last [] = (p.value.head, p.value.links) →
      t.lexeme = closing p.value.closer → Closes outer p.value.closer →
      whole = complete ctx ⟨.operator before last, outer, closings⟩ (t :: p.rest) →
      Agrees ctx outer whole (.ok p)

/-- The same for an operand, a group or a call. -/
inductive AgreesOperand (ctx : Context) (before : Before) (negative : Bool) (outer : List Level)
    (whole : Except Halt Expr) {n : Nat} : Except Halt (Parsed Expr n) → Prop
  | halts {h : Halt} : whole = .error h → AgreesOperand ctx before negative outer whole (.error h)
  | arrives {p : Parsed Expr n} {closings : List Char} :
      whole = complete ctx ⟨.operator before (withSign negative p.value), outer, closings⟩ p.rest →
      AgreesOperand ctx before negative outer whole (.ok p)

theorem Agrees.weaken {outer : List Level} {whole : Except Halt Expr} {n m : Nat}
    {r : Except Halt (Parsed Chain n)} (h : Agrees ctx outer whole r) (hnm : n ≤ m) :
    Agrees ctx outer whole (do return (← r).weaken hnm) := by
  cases h with
  | halts h => exact .halts h
  | arrives hlinks ht hcloses h => exact .arrives hlinks ht hcloses h

theorem AgreesOperand.weaken {before : Before} {negative : Bool} {outer : List Level}
    {whole : Except Halt Expr} {n m : Nat} {r : Except Halt (Parsed Expr n)}
    (h : AgreesOperand ctx before negative outer whole r) (hnm : n ≤ m) :
    AgreesOperand ctx before negative outer whole (do return (← r).weaken hnm) := by
  cases h with
  | halts h => exact .halts h
  | arrives h => exact .arrives h

/-! ## Levels -/

/-- A level is opened under the same condition. -/
theorem proceed_enter (s : State) (level : Level) (ts : List Token) :
    proceed ctx (s.enter ctx level) ts = (checkDepth ctx (brackets (level :: s.outer))).bind fun _ ↦
      complete ctx ⟨.operand [] false, level :: s.outer, s.closings⟩ ts := by
  rw [State.enter, checkDepth, length_brackets]
  split
  · rfl
  · split <;> rfl

/-! ## The simulation -/

variable (ctx) in
/-- On less than `n` tokens, the descent and the reader agree. -/
structure Simulates (n : Nat) : Prop where
  loop : ∀ (outer : List Level) {place : Place} {v : Progress}, Follows place v →
    ∀ (closings : List Char) (ts : List Token), ts.length < n →
      Agrees ctx outer (complete ctx ⟨place, outer, closings⟩ ts)
        (loop ctx (brackets outer) (closers outer) v ts)
  arguments : ∀ {outer : List Level} {before : Before} {negative : Bool} {f : Declaration}
    {given : List Expr}, given.length < f.arity.count →
    checkDepth ctx (.call :: brackets outer) = .ok () →
    ∀ (closings : List Char) (ts : List Token), ts.length < n →
      AgreesOperand ctx before negative outer
        (complete ctx
          ⟨.operand [] false, ⟨before, negative, .call f given.reverse⟩ :: outer, closings⟩ ts)
        (arguments ctx (.call :: brackets outer) f given ts)

theorem Follows.of_operand {before : Before} {negative : Bool} {v : Progress}
    (h : Follows (.operand before negative) v) :
    v.awaitsOperand = true ∧ v.negative = negative := by
  cases h <;> exact ⟨rfl, rfl⟩

theorem Follows.sign {before : Before} {negative : Bool} {v : Progress}
    (h : Follows (.operand before negative) v) (negative' : Bool) :
    Follows (.operand before negative') { v with negative := negative' } := by
  cases h with
  | first => exact .first negative'
  | next before e op => exact .next before e op negative'

/-- At the end of the text. -/
theorem agrees_finish {outer : List Level} {place : Place} {v : Progress} (hv : Follows place v)
    (closings : List Char) {t : Token} (ht : t.lexeme = .finish) (rest : List Token) :
    Agrees ctx outer (complete ctx ⟨place, outer, closings⟩ (t :: rest))
      (loop ctx (brackets outer) (closers outer) v (t :: rest)) := by
  rw [loop, ht]
  dsimp only
  cases outer with
  | cons level outer =>
    have hclosers : closers (level :: outer) ≠ [] := by
      rw [closers]
      cases level.opening <;> simp
    rw [Progress.finish, if_pos hclosers, complete_finish ht]
    cases hv <;> exact .halts rfl
  | nil =>
    cases hv with
    | first negative =>
      rw [complete_finish ht]
      exact .halts rfl
    | next before e op negative =>
      rw [complete_finish ht]
      exact .halts rfl
    | after before last pending => exact .arrives rfl ht rfl rfl

section Steps

variable {n : Nat} (hS : Simulates ctx n)
  (hfunctions : ∀ d ∈ ctx.functions.declarations, 1 ≤ d.arity.count)

include hS in
/-- The call of a function, from its parenthesis. -/
theorem call_agrees {outer : List Level} {f : Declaration} (hf : 1 ≤ f.arity.count)
    (before : Before) (negative : Bool) (closings : List Char) {ts : List Token}
    (hts : ts.length < n) :
    AgreesOperand ctx before negative outer
      (complete ctx ⟨.opening before negative f, outer, closings⟩ ts)
      (call ctx (.call :: brackets outer) f ts) := by
  cases ts with
  | nil =>
    rw [call]
    exact .halts rfl
  | cons t rest =>
    rw [call]
    by_cases hopen : t.lexeme = .symbol '('
    · have hne : t.lexeme ≠ .finish := by rw [hopen]; simp
      rw [if_pos hopen, complete_cons hne, State.read]
      dsimp only
      rw [State.readOpening, if_pos hopen]
      split
      · rw [proceed_enter]
        change AgreesOperand ctx before negative outer
          ((checkDepth ctx (.call :: brackets outer)).bind _) _
        cases hdepth : checkDepth ctx (.call :: brackets outer) with
        | error h =>
          rw [arguments, if_pos (show ([] : List Expr).length < f.arity.count from hf), term,
            hdepth]
          exact .halts rfl
        | ok _ =>
          exact hS.arguments (show ([] : List Expr).length < f.arity.count from hf) hdepth closings
            rest (by rw [List.length_cons] at hts; omega)
      · exact .halts rfl
    · rw [if_neg hopen]
      by_cases hfinish : t.lexeme = .finish
      · rw [complete_finish hfinish]
        exact .halts rfl
      · rw [complete_cons hfinish, State.read]
        dsimp only
        rw [State.readOpening, if_neg hopen]
        exact .halts rfl

include hS in
/-- The loop goes on after an operand that has been read. -/
theorem loop_agrees_add {outer : List Level} {before : Before} {negative : Bool} {v : Progress}
    (hv : Follows (.operand before negative) v) {m : Nat} {r : Except Halt (Parsed Expr m)}
    {whole : Except Halt Expr} (hr : AgreesOperand ctx before negative outer whole r)
    (hm : m ≤ n) :
    Agrees ctx outer whole (do
      let p ← r
      let v ← v.add (withSign v.negative p.value)
      return (← loop ctx (brackets outer) (closers outer) v p.rest).weaken p.le_succ) := by
  cases hr with
  | halts h => exact .halts h
  | @arrives p closings h =>
    obtain ⟨v', hadd, hv'⟩ := hv.add (withSign v.negative p.value)
    have hlt : p.rest.length < n := Nat.lt_of_lt_of_le p.lt hm
    rw [h]
    rw [hv.of_operand.2] at hadd hv'
    show Agrees ctx outer _ (v.add (withSign v.negative p.value) >>= _)
    rw [hv.of_operand.2, hadd]
    exact (hS.loop outer hv' closings p.rest hlt).weaken p.le_succ

include hS in
/-- A chain that begins a level. -/
theorem term_agrees (s : State) (level : Level) {ts : List Token} (hts : ts.length < n) :
    Agrees ctx (level :: s.outer) (proceed ctx (s.enter ctx level) ts)
      (term ctx (brackets (level :: s.outer)) (closers (level :: s.outer)) ts) := by
  rw [proceed_enter, term]
  cases checkDepth ctx (brackets (level :: s.outer)) with
  | error h => exact .halts rfl
  | ok _ => exact hS.loop (level :: s.outer) (.first false) s.closings ts hts

/-- A group ends with its parenthesis. -/
theorem complete_closeGroup {outer : List Level} (before inner : Before) (negative : Bool)
    (last : Expr) (closings : List Char) {t : Token} (ht : t.lexeme = .symbol ')')
    (rest : List Token) :
    complete ctx ⟨.operator inner last, ⟨before, negative, .group⟩ :: outer, closings⟩ (t :: rest) =
      complete ctx
        ⟨.operator before (withSign negative (close inner last)), outer, ')' :: closings⟩ rest := by
  rw [complete_cons (by rw [ht]; simp), State.read]
  dsimp only
  rw [State.readOperator, ht]
  rfl

include hS in
/-- The loop goes on after a group. -/
theorem loop_agrees_group {outer : List Level} {before : Before} {negative : Bool} {v : Progress}
    (hv : Follows (.operand before negative) v) {m : Nat} {r : Except Halt (Parsed Chain m)}
    {whole : Except Halt Expr} (hr : Agrees ctx (⟨before, negative, .group⟩ :: outer) whole r)
    (hm : m ≤ n) :
    Agrees ctx outer whole (do
      let p ← r
      let v ← v.add (withSign v.negative (.chain false p.value.head p.value.links))
      return (← loop ctx (brackets outer) (closers outer) v p.rest).weaken p.le_succ) := by
  cases hr with
  | halts h => exact .halts h
  | @arrives p inner last closings t hlinks ht hcloses h =>
    obtain ⟨c, hc, hcloser⟩ := hcloses
    obtain rfl := List.mem_singleton.1 hc
    rw [hcloser] at ht
    rw [complete_closeGroup before inner negative last closings ht, Grammar.close_eq, hlinks] at h
    exact loop_agrees_add hS hv
      (.arrives (p := ⟨.chain false p.value.head p.value.links, p.rest, p.lt⟩) h) hm

include hS hfunctions in
/-- A token before an operand. -/
theorem loop_agrees_operand {outer : List Level} {before : Before} {negative : Bool} {v : Progress}
    (hv : Follows (.operand before negative) v) (closings : List Char) {t : Token}
    (ht : t.lexeme ≠ .finish) {rest : List Token} (hrest : rest.length < n) :
    Agrees ctx outer (complete ctx ⟨.operand before negative, outer, closings⟩ (t :: rest))
      (loop ctx (brackets outer) (closers outer) v (t :: rest)) := by
  obtain ⟨hawaits, hnegative⟩ := hv.of_operand
  rw [complete_cons ht, State.read]
  dsimp only
  rw [State.readOperand, loop]
  cases hl : t.lexeme with
  | finish => exact absurd hl ht
  | number word =>
    dsimp only
    rw [if_pos hawaits]
    cases number ctx.dialect.maxLiteralExponent word with
    | error e => exact .halts rfl
    | ok d =>
      dsimp only
      obtain ⟨v', hadd, hv'⟩ := hv.add (.const (if v.negative then d.negate else d))
      rw [hadd]
      rw [hnegative] at hv'
      exact (hS.loop outer hv' closings rest hrest).weaken (Nat.le_succ _)
  | name word =>
    dsimp only
    rw [if_pos hawaits]
    cases hf : ctx.functions.lookup? (String.ofList word) with
    | none => exact .halts rfl
    | some f =>
      have hcount := hfunctions f (List.mem_of_find?_eq_some hf)
      exact loop_agrees_add hS hv (call_agrees hS hcount before negative closings hrest)
        (Nat.le_of_lt hrest)
  | symbol c =>
    dsimp only
    rw [if_neg (show ¬ (!v.awaitsOperand) = true by simp [hawaits])]
    by_cases hopen : c = '('
    · rw [if_pos hopen, if_pos hopen]
      have hterm := term_agrees hS ⟨.operand before negative, outer, closings⟩
        ⟨before, negative, .group⟩ hrest
      exact loop_agrees_group hS hv hterm (Nat.le_of_lt hrest)
    rw [if_neg hopen, if_neg hopen]
    by_cases hsign : (c = '+' ∨ c = '-') ∧ !ctx.dialect.strict
    · rw [if_pos hsign]
      obtain ⟨rfl | rfl, hstrict⟩ := hsign
      · have hplus : (v.negative ^^ decide ('+' = '-')) = negative := by simp [hnegative]
        rw [if_pos (show '+' = '+' ∧ _ from ⟨rfl, hstrict⟩), hplus]
        exact (hS.loop outer (hv.sign _) closings rest hrest).weaken (Nat.le_succ _)
      · have hminus : (v.negative ^^ decide ('-' = '-')) = !negative := by simp [hnegative]
        rw [if_neg (show ¬ ('-' = '+' ∧ _) from fun h ↦ absurd h.1 (by decide)),
          if_pos (show '-' = '-' ∧ _ from ⟨rfl, hstrict⟩), hminus]
        exact (hS.loop outer (hv.sign _) closings rest hrest).weaken (Nat.le_succ _)
    · rw [if_neg hsign, if_neg fun h ↦ hsign ⟨.inl h.1, h.2⟩, if_neg fun h ↦ hsign ⟨.inr h.1, h.2⟩]
      exact .halts rfl

/-- A symbol that closes nothing has to be an operator. -/
theorem readOperator_eq_readLink {outer : List Level} (before : Before) (last : Expr)
    (closings : List Char) {t : Token} {c : Char} (ht : t.lexeme = .symbol c)
    (hc : c ∉ closers outer) :
    State.readOperator ⟨.operator before last, outer, closings⟩ before last t =
      State.readLink ⟨.operator before last, outer, closings⟩ before last c := by
  rw [State.readOperator, ht]
  dsimp only
  cases outer with
  | nil => rfl
  | cons level outer =>
    rw [closers] at hc
    dsimp only
    cases hopening : level.opening with
    | group =>
      rw [hopening] at hc
      exact if_neg (by simpa using hc)
    | call f arguments =>
      rw [hopening] at hc
      refine if_neg ?_
      simp only [List.mem_cons, List.not_mem_nil, or_false, not_or] at hc
      tauto

include hS in
/-- A token after an operand. -/
theorem loop_agrees_operator {outer : List Level} {before : Before} {last : Expr} {v : Progress}
    (hv : Follows (.operator before last) v) (closings : List Char) {t : Token}
    (ht : t.lexeme ≠ .finish) {rest : List Token} (hrest : rest.length < n) :
    Agrees ctx outer (complete ctx ⟨.operator before last, outer, closings⟩ (t :: rest))
      (loop ctx (brackets outer) (closers outer) v (t :: rest)) := by
  cases hv with
  | after _ _ pending =>
    rw [loop]
    cases hl : t.lexeme with
    | finish => exact absurd hl ht
    | number word | name word =>
      rw [complete_cons ht, State.read]
      dsimp only
      rw [State.readOperator, hl]
      exact .halts rfl
    | symbol c =>
      dsimp only
      rw [if_pos (show (!false) = true from rfl)]
      by_cases hc : c ∈ closers outer
      · rw [if_pos hc]
        cases outer with
        | nil => cases hc
        | cons level outer => exact .arrives rfl hl ⟨c, hc, rfl⟩ rfl
      · rw [if_neg hc, complete_cons ht, State.read]
        dsimp only
        rw [readOperator_eq_readLink before last closings hl hc, State.readLink,
          Operator.ofSymbol]
        cases hop : Operator.ofSymbol? c with
        | none => exact .halts rfl
        | some op =>
          have hnext := hS.loop outer (.next before last op false) closings rest hrest
          exact hnext.weaken (Nat.le_succ _)

include hS hfunctions in
/-- Any tokens of a chain. -/
theorem loop_agrees (outer : List Level) {place : Place} {v : Progress} (hv : Follows place v)
    (closings : List Char) {ts : List Token} (hts : ts.length < n + 1) :
    Agrees ctx outer (complete ctx ⟨place, outer, closings⟩ ts)
      (loop ctx (brackets outer) (closers outer) v ts) := by
  cases ts with
  | nil =>
    rw [loop]
    exact .halts rfl
  | cons t rest =>
    have hrest : rest.length < n := Nat.lt_of_succ_lt_succ hts
    by_cases ht : t.lexeme = .finish
    · exact agrees_finish hv closings ht rest
    · cases place with
      | operand before negative => exact loop_agrees_operand hS hfunctions hv closings ht hrest
      | operator before last => exact loop_agrees_operator hS hv closings ht hrest
      | opening before negative f => cases hv

/-- The end of an argument. -/
theorem complete_closeArgument {outer : List Level} (before inner : Before) (negative : Bool)
    (f : Declaration) (args : List Expr) (last : Expr) (closings : List Char) {t : Token} {c : Char}
    (ht : t.lexeme = .symbol c) (hc : c ∈ [',', ')']) (rest : List Token) :
    complete ctx ⟨.operator inner last, ⟨before, negative, .call f args⟩ :: outer, closings⟩
        (t :: rest) =
      proceed ctx (State.closeArgument
        ⟨.operator inner last, ⟨before, negative, .call f args⟩ :: outer, c :: closings⟩
        ⟨before, negative, .call f args⟩ outer f (argument inner last :: args) c) rest := by
  have hcloser : c = ')' ∨ c = ',' := by
    simp only [List.mem_cons, List.not_mem_nil, or_false] at hc
    exact hc.symm
  rw [complete_cons (by rw [ht]; simp), State.read]
  dsimp only
  rw [State.readOperator, ht]
  dsimp only
  rw [if_pos hcloser]

include hS hfunctions in
/-- The arguments of a call that are still to come. -/
theorem arguments_agree {outer : List Level} {before : Before} {negative : Bool} {f : Declaration}
    {given : List Expr} (hgiven : given.length < f.arity.count)
    (hdepth : checkDepth ctx (.call :: brackets outer) = .ok ()) (closings : List Char)
    {ts : List Token} (hts : ts.length < n + 1) :
    AgreesOperand ctx before negative outer
      (complete ctx
        ⟨.operand [] false, ⟨before, negative, .call f given.reverse⟩ :: outer, closings⟩ ts)
      (arguments ctx (.call :: brackets outer) f given ts) := by
  have hloop := loop_agrees hS hfunctions (⟨before, negative, .call f given.reverse⟩ :: outer)
    (.first false) closings hts
  rw [arguments, if_pos hgiven, term, hdepth]
  change Agrees ctx _ _ (loop ctx (.call :: brackets outer) [',', ')'] .start ts) at hloop
  show AgreesOperand ctx before negative outer _
    (loop ctx (.call :: brackets outer) [',', ')'] .start ts >>= _)
  generalize loop ctx (.call :: brackets outer) [',', ')'] .start ts = r at hloop ⊢
  cases hloop with
  | halts h => exact .halts h
  | @arrives p inner last closings' t hlinks ht hcloses h =>
    obtain ⟨c, hc, hcloser⟩ := hcloses
    rw [hcloser] at ht
    rw [complete_closeArgument before inner negative f given.reverse last closings' ht hc,
      State.closeArgument, Grammar.argument_eq, hlinks, List.length_cons, List.length_reverse] at h
    set arg := Grammar.argumentOf p.value.head p.value.links with harg
    have hlength : (given ++ [arg]).length = given.length + 1 := by simp
    have hreverse : (given ++ [arg]).reverse = arg :: given.reverse := by simp
    have hrest : p.rest.length < n := Nat.lt_of_lt_of_le p.lt (Nat.le_of_lt_succ hts)
    rw [h]
    show AgreesOperand ctx before negative outer _ (if p.value.closer = _ then _ else _)
    rw [hcloser]
    by_cases hlast : given.length + 1 = f.arity.count
    · rw [if_pos (Nat.le_of_eq hlast.symm), if_pos hlast]
      by_cases hparen : c = ')'
      · have hcall : f.bind? (given ++ [arg]) = .ok (f.call (given ++ [arg])) := by
          rw [Declaration.bind?, if_pos (hlength.trans hlast)]
        have hfull : ¬ (given ++ [arg]).length < f.arity.count := by omega
        rw [if_pos hparen, if_pos (congrArg some hparen), arguments, if_neg hfull, hcall,
          ← hreverse, List.reverse_reverse]
        exact .arrives rfl
      · rw [if_neg hparen, if_neg fun h ↦ hparen (Option.some.inj h)]
        exact .halts rfl
    · rw [if_neg (by omega), if_neg hlast]
      by_cases hcomma : c = ','
      · rw [if_pos hcomma, if_pos (congrArg some hcomma), ← hreverse]
        exact (hS.arguments (by omega) hdepth _ p.rest hrest).weaken p.succ_le
      · rw [if_neg hcomma, if_neg fun h ↦ hcomma (Option.some.inj h)]
        exact .halts rfl

end Steps

/-- **The descent and the reader agree** on all lists of tokens. -/
theorem simulates (hfunctions : ∀ d ∈ ctx.functions.declarations, 1 ≤ d.arity.count) (n : Nat) :
    Simulates ctx n := by
  induction n with
  | zero =>
    exact ⟨fun _ _ _ _ _ ts hts ↦ absurd hts (Nat.not_lt_zero _),
      fun _ _ _ ts hts ↦ absurd hts (Nat.not_lt_zero _)⟩
  | succ n ih =>
    exact ⟨fun outer _ _ hv closings ts hts ↦ loop_agrees ih hfunctions outer hv closings hts,
      fun hgiven hdepth closings ts hts ↦ arguments_agree ih hfunctions hgiven hdepth closings hts⟩

/-! ## Whole texts -/

/-- The chain of a whole text. -/
theorem term_eq (hfunctions : ∀ d ∈ ctx.functions.declarations, 1 ≤ d.arity.count)
    {ts : List Token} (hts : ∀ t ∈ ts, t.lexeme ≠ .finish) {t : Token} (ht : t.lexeme = .finish) :
    (term ctx [] [] (ts ++ [t])).map (fun p ↦ Expr.chain false p.value.head p.value.links) =
      (Parser.readTokens ctx ts).value.mapError .unreadable := by
  rw [term, checkDepth]
  rcases lt_or_ge ctx.dialect.maxDepth 0 with hdepth | hdepth
  · rw [value_readTokens_of_neg hdepth,
      if_pos (show ctx.dialect.maxDepth < (([] : List Bracket).length : Int) from hdepth)]
    rfl
  rw [value_readTokens hdepth, ← complete_append_finish hts start t ht [],
    if_neg (show ¬ ctx.dialect.maxDepth < (([] : List Bracket).length : Int) from
      Int.not_lt.2 hdepth),
    if_neg (show ¬ (!ctx.host.canFollow []) = true by simp [ctx.host.canFollow_nil])]
  have hloop := (simulates hfunctions _).loop [] (.first false) [] (ts ++ [t])
    (Nat.lt_succ_self _)
  change Agrees ctx [] (complete ctx start (ts ++ [t])) (loop ctx [] [] .start (ts ++ [t])) at hloop
  show (loop ctx [] [] .start (ts ++ [t])).map _ = _
  generalize loop ctx [] [] .start (ts ++ [t]) = r at hloop ⊢
  cases hloop with
  | halts h => rw [h]; rfl
  | @arrives p before last closings t' hlinks ht' hcloses h =>
    have hcloser : p.value.closer = none := hcloses
    rw [hcloser] at ht'
    rw [h, complete_finish ht']
    show _ = Except.ok (close before last)
    rw [Grammar.close_eq, hlinks]
    rfl

/-- **A descent does what the parser does.** -/
theorem parse_eq (hfunctions : ∀ d ∈ ctx.functions.declarations, 1 ≤ d.arity.count)
    (text : String) : parse ctx text = (Parser.parseRaw ctx text).value.mapError .unreadable := by
  rw [parse]
  rcases lt_or_ge ctx.dialect.maxLength text.length with hlength | hlength
  · rw [if_pos hlength, Grammar.parseRaw_tooLong hlength]
    rfl
  rw [if_neg (Int.not_lt.2 hlength)]
  have htokens := Grammar.scan_eq_append ctx.dialect.strict text
  have hne := Token.lexeme_ne_finish ctx.dialect.strict 0 text.toList
  change ∀ t ∈ (Token.ofText ctx.dialect.strict text).dropLast, t.lexeme ≠ .finish at hne
  by_cases hnil : (Token.ofText ctx.dialect.strict text).dropLast = []
  · rw [Grammar.parseRaw_eq_none_iff.2 ⟨hlength, by rw [Grammar.lexemes, hnil]; rfl⟩, htokens, hnil]
    rfl
  · obtain ⟨t, ts, hts⟩ := List.exists_cons_of_ne_nil hnil
    have hsplit : Token.ofText ctx.dialect.strict text =
        t :: (ts ++ [⟨.finish, text.toList.length⟩]) := by
      rw [htokens, hts]
      rfl
    rw [Grammar.parseRaw_value hlength hnil, hts, hsplit]
    rw [hts] at hne
    have hterm := term_eq hfunctions hne (t := ⟨.finish, text.toList.length⟩) rfl
    dsimp only [List.cons_append] at hterm ⊢
    rw [if_neg (hne t List.mem_cons_self)]
    refine Eq.trans (b := (Except.map _ (term ctx [] [] (t :: (ts ++ _)))).map some) ?_
      (Eq.trans (congrArg _ hterm) ?_)
    · cases term ctx [] [] (t :: (ts ++ [⟨.finish, text.toList.length⟩])) <;> rfl
    · cases (Parser.readTokens ctx (t :: ts)).value <;> rfl

end Formula.Descent
