import Formula.Proofs.Answer
import Formula.Proofs.Binding
import Formula.Proofs.Grammar.Report
import Formula.Proofs.Occurrence
import Formula.Proofs.Outcome

/-!
# Failures that are not expected

Registered functions may return infinities and values that are not numbers, so operators can meet
them anywhere.  All but one of the operators have a result for them or a failure that belongs to
their arithmetic.  The power is the exception: with a whole exponent it asks for the size of its
base before it looks at anything else, and a base that is not finite has no size.  Nothing is
prepared for that, so the answer comes with a warning in the log.

A function is discreet if it adds no failures of this kind: those that it has are failures of its
arguments.  The built-in functions are, and so is every function that either returns a number or
passes on the failure of an argument.

* `Arithmetic.Sizeless` — the base and the exponent of a power of which there is no size.
* `Operator.apply_unexpected_iff` — no other operands make an operator fail in this way.
* `AsksSize ar e scale` — the evaluation of an expression ends with such a power.
* `Expr.exists_unexpected_iff` — if the functions are discreet, nothing else is unexpected.
* `Calculator.unexpected_iff` — the main result, about all of this and the records of an answer.
-/

set_option autoImplicit false

namespace Formula

open Decimal Formula.Expr Log

variable {ar : Arithmetic}

/-! ## Steps of an evaluation -/

theorem bind_ok {α β : Type} (a : α) (k : α → Except Failure β) : (Except.ok a).bind k = k a := rfl

/-- An evaluation in two steps fails in the first one or in the second one. -/
theorem bind_eq_error_iff {α β : Type} {x : Except Failure α} {k : α → Except Failure β}
    {f : Failure} : x.bind k = .error f ↔ x = .error f ∨ ∃ a, x = .ok a ∧ k a = .error f := by
  cases x with
  | error g => simp [Except.bind]
  | ok a => simp [Except.bind]

/-! ## Operators -/

/-- The exponent is a whole number within the bound, so the size of the power matters, but the base
is not finite. -/
structure Arithmetic.Sizeless (ar : Arithmetic) (base exponent : Decimal) : Prop where
  not_finite : base.isFinite = false
  finite : exponent.isFinite
  whole : ∃ n : Int, exponent.toRat = n ∧ (n.natAbs : Int) ≤ ar.maxExactExponent

/-- Such a power fails, and nothing is prepared for that. -/
theorem Arithmetic.Sizeless.power_eq {base exponent : Decimal} (h : ar.Sizeless base exponent)
    (scale : Int) : ar.power base exponent scale = .error .sizeOfNonFinite := by
  obtain ⟨n, hn⟩ := h.whole
  have hbase := h.not_finite
  rw [Arithmetic.power, (integralValue_eq_some_iff h.finite).2 hn]
  cases base with
  | finite => cases hbase
  | infinity => rfl
  | nan => rfl

/-- The failures of sums are known. -/
theorem kind_of_add {a b : Decimal} {f : Failure} (h : a.add b = .error f) :
    f.kind = .arithmetic := by
  cases a with
  | finite => cases b <;> cases h
  | nan => cases h
  | infinity s =>
    cases b with
    | finite => cases h
    | nan => cases h
    | infinity t =>
      rw [Decimal.add] at h
      split at h <;> cases h
      rfl

/-- The failures of products are known. -/
theorem kind_of_mul {a b : Decimal} {f : Failure} (h : a.mul b = .error f) :
    f.kind = .arithmetic := by
  cases a with
  | nan => cases h
  | finite =>
    cases b with
    | finite => cases h
    | nan => cases h
    | infinity =>
      rw [Decimal.mul] at h
      split at h <;> cases h
      rfl
  | infinity =>
    cases b with
    | nan => cases h
    | infinity => cases h
    | finite =>
      rw [Decimal.mul] at h
      split at h <;> cases h
      rfl

/-- The failures of quotients are known. -/
theorem kind_of_divide {a b : Decimal} {scale : Int} {f : Failure}
    (h : a.divide b scale = .error f) : f.kind ≠ .unexpected := by
  rw [Decimal.divide.eq_def] at h
  split at h
  · cases h
    decide
  · split at h <;> cases h <;> decide

theorem kind_of_roundTo {d : Decimal} {places : Int} {f : Failure}
    (h : d.roundTo places = .error f) : f.kind = .arithmetic := by
  unfold Decimal.roundTo at h
  split at h
  · cases h
  · cases h
    rfl
  · split at h <;> cases h

theorem kind_of_wholePower {a : Decimal} {n scale : Int} {f : Failure}
    (h : Arithmetic.wholePower a n scale = .error f) : f.kind ≠ .unexpected := by
  unfold Arithmetic.wholePower at h
  split at h
  · cases h
  · split at h
    · cases h
      decide
    · exact kind_of_divide h

theorem kind_of_roundedPower {a b : Decimal} {scale : Int} {f : Failure}
    (h : ar.roundedPower a b scale = .error f) : f.kind ≠ .unexpected := by
  obtain ⟨d, hd, -⟩ | ⟨cause, hcause⟩ := @roundedPower_cases ar a b scale
  · cases hd.symm.trans h
  · cases hcause.symm.trans h
    simp [Failure.kind]

theorem sizeless_of_power {a b : Decimal} {scale : Int} {f : Failure}
    (h : ar.power a b scale = .error f) (hf : f.kind = .unexpected) : ar.Sizeless a b := by
  unfold Arithmetic.power at h
  split at h
  · exact absurd hf (kind_of_roundedPower h)
  · rename_i n hn
    have hb : b.isFinite := by
      cases b with
      | finite => rfl
      | infinity => cases hn
      | nan => cases hn
    cases a with
    | finite s c e =>
      simp only [Arithmetic.powerDigits, bind, Except.bind] at h
      split at h
      · exact absurd hf (kind_of_wholePower h)
      · exact absurd hf (kind_of_roundedPower h)
    | infinity => exact ⟨rfl, hb, n, (integralValue_eq_some_iff hb).1 hn⟩
    | nan => exact ⟨rfl, hb, n, (integralValue_eq_some_iff hb).1 hn⟩

/-- **An operator fails unexpectedly exactly if it is a power without a size.** -/
theorem Operator.apply_unexpected_iff {op : Operator} {a b : Decimal} {scale : Int} :
    (∃ f, op.apply ar a b scale = .error f ∧ f.kind = .unexpected) ↔
      op = .power ∧ ar.Sizeless a b := by
  constructor
  · rintro ⟨f, h, hf⟩
    cases op with
    | plus => simp [kind_of_add h] at hf
    | minus => simp [kind_of_add h] at hf
    | times => simp [kind_of_mul h] at hf
    | divide => exact absurd hf (kind_of_divide h)
    | power => exact ⟨rfl, sizeless_of_power h hf⟩
  · rintro ⟨rfl, h⟩
    exact ⟨_, h.power_eq scale, rfl⟩

/-! ## Functions -/

namespace Procedure

/-- Called with so many arguments, the procedure has no unexpected failures but those of its
arguments. -/
def Discreet (p : Procedure) (count : Nat) : Prop :=
  ∀ as scale f, as.length = count → p as scale = .error f → f.kind = .unexpected →
    ∃ a ∈ as, ∃ t, a.value t = .error f

/-- A procedure that always returns a decimal or passes on the failure of an argument. -/
theorem Discreet.of_forall {p : Procedure} {count : Nat}
    (h : ∀ as scale, as.length = count → (∃ d, p as scale = .ok (.decimal d)) ∨
      ∃ a ∈ as, ∃ t f, a.value t = .error f ∧ p as scale = .error f) : p.Discreet count := by
  intro as scale f hlength hf _
  obtain ⟨d, hd⟩ | ⟨a, ha, t, g, hg, hp⟩ := h as scale hlength
  · cases hd.symm.trans hf
  · cases hp.symm.trans hf
    exact ⟨a, ha, t, hg⟩

theorem kind_of_sine {d : Decimal} {scale : Int} {f : Failure} (h : ar.sine d scale = .error f) :
    f.kind ≠ .unexpected := by
  unfold Arithmetic.sine at h
  dsimp only at h
  split at h
  · cases h
    decide
  · cases hfinite : (ar.elementary.sin (.ofDecimal d)).isFinite with
    | true =>
      obtain ⟨r, hr, -⟩ := ofBinary64_spec hfinite scale
      cases hr.symm.trans h
    | false =>
      rw [Arithmetic.ofBinary64, hfinite] at h
      cases h
      decide

theorem discreet_sine (ar : Arithmetic) : (sine ar).Discreet 1 := by
  intro as scale f hlength h hf
  obtain ⟨x, rfl⟩ := List.length_eq_one_iff.1 hlength
  obtain hx | ⟨d, -, hd⟩ := bind_eq_error_iff.1 h
  · exact ⟨x, by simp, scale, hx⟩
  · obtain hd | ⟨r, -, ⟨⟩⟩ := bind_eq_error_iff.1 hd
    exact absurd hf (kind_of_sine hd)

theorem discreet_choose : choose.Discreet 3 := by
  intro as scale f hlength h _
  obtain ⟨c, x, y, rfl⟩ := List.length_eq_three.1 hlength
  obtain hc | ⟨d, -, hd⟩ := bind_eq_error_iff.1 h
  · exact ⟨c, by simp, scale, hc⟩
  · split at hd
    · obtain hy | ⟨r, -, ⟨⟩⟩ := bind_eq_error_iff.1 hd
      exact ⟨y, by simp, scale, hy⟩
    · obtain hx | ⟨r, -, ⟨⟩⟩ := bind_eq_error_iff.1 hd
      exact ⟨x, by simp, scale, hx⟩

theorem discreet_round (ar : Arithmetic) : (round ar).Discreet 2 := by
  intro as scale f hlength h hf
  obtain ⟨x, n, rfl⟩ := List.length_eq_two.1 hlength
  obtain hx | ⟨d, -, hd⟩ := bind_eq_error_iff.1 h
  · exact ⟨x, by simp, scale, hx⟩
  · obtain hn | ⟨places, -, hplaces⟩ := bind_eq_error_iff.1 hd
    · exact ⟨n, by simp, 0, hn⟩
    · split at hplaces
      · cases hplaces
        exact absurd hf (by decide)
      · obtain hround | ⟨r, -, ⟨⟩⟩ := bind_eq_error_iff.1 hplaces
        rw [kind_of_roundTo hround] at hf
        cases hf

end Procedure

/-- The built-in functions are discreet. -/
theorem discreet_builtins (ar : Arithmetic) :
    ∀ d ∈ (Registry.builtins ar).declarations, d.procedure.Discreet d.arity.count := by
  intro d hd
  simp only [Registry.builtins, List.mem_cons, List.not_mem_nil, or_false] at hd
  obtain rfl | rfl | rfl := hd
  · exact Procedure.discreet_sine ar
  · exact Procedure.discreet_choose
  · exact Procedure.discreet_round ar

/-! ## Expressions -/

namespace Expr

/-- All functions that the expression calls are discreet. -/
def Discreet (e : Expr) : Prop := ∀ b ∈ e.calls, b.procedure.Discreet b.count

theorem Discreet.part {e p : Expr} (h : e.Discreet) (hp : p ∈ e.parts) : p.Discreet := by
  intro b hb
  refine h b ?_
  cases e with
  | const d => cases hp
  | chain introduced head links =>
    rw [calls_chain, List.mem_append]
    obtain rfl | hp := List.mem_cons.1 hp
    · exact .inl hb
    · obtain ⟨l, hl, rfl⟩ := List.mem_map.1 hp
      exact .inr (List.mem_flatMap.2 ⟨l, hl, hb⟩)
  | call name procedure arguments =>
    rw [calls_call]
    exact List.mem_cons_of_mem _ (List.mem_flatMap.2 ⟨p, hp, hb⟩)

/-- A chain fails in its first operand, in another operand or in the operator before that one. -/
theorem eval_chain_eq_error {introduced : Bool} {head : Expr} {links : List Link} {scale : Int}
    {f : Failure} (h : eval ar (.chain introduced head links) scale = .error f) :
    eval ar head scale = .error f ∨ ∃ before op e after a, links = before ++ (op, e) :: after ∧
      eval ar (.chain introduced head before) scale = .ok a ∧
      (eval ar e scale = .error f ∨
        ∃ b, eval ar e scale = .ok b ∧ op.apply ar a b scale = .error f) := by
  induction links using List.reverseRecOn with
  | nil =>
    obtain hhead | ⟨d, -, ⟨⟩⟩ := bind_eq_error_iff.1 h
    exact .inl hhead
  | append_singleton links l ih =>
    obtain ⟨op, e⟩ := l
    rw [eval_chain_append] at h
    obtain hbefore | ⟨a, ha, hlast⟩ := bind_eq_error_iff.1 h
    · obtain hhead | ⟨before, op', e', after, a, rfl, hfails⟩ := ih hbefore
      · exact .inl hhead
      · exact .inr ⟨before, op', e', after ++ [(op, e)], a, by simp, hfails⟩
    · refine .inr ⟨links, op, e, [], a, rfl, ha, ?_⟩
      obtain he | ⟨b, hb, happly⟩ := bind_eq_error_iff.1 hlast
      · exact .inl he
      · obtain hop | ⟨r, -, ⟨⟩⟩ := bind_eq_error_iff.1 happly
        exact .inr ⟨b, hb, hop⟩

theorem mem_argumentsOf {es : List Expr} {a : Argument} (h : a ∈ argumentsOf ar es) :
    ∃ e ∈ es, a.value = eval ar e := by
  induction es with
  | nil => cases h
  | cons e es ih =>
    obtain rfl | h := List.mem_cons.1 h
    · exact ⟨e, List.mem_cons_self, rfl⟩
    · obtain ⟨e', he', ha⟩ := ih h
      exact ⟨e', List.mem_cons_of_mem e he', ha⟩

theorem length_argumentsOf (es : List Expr) : (argumentsOf ar es).length = es.length := by
  induction es with
  | nil => rfl
  | cons e es ih => rw [argumentsOf, List.length_cons, List.length_cons, ih]

section

variable (ar)

/-- Evaluating the expression at a scale ends with a power of which there is no size: there is such
a power in it, or in an argument whose failure a function passes on. -/
inductive AsksSize : Expr → Int → Prop
  | power {introduced : Bool} {head e : Expr} {before after : List Link} {scale : Int}
      {a b : Decimal} :
      eval ar (.chain introduced head before) scale = .ok a → eval ar e scale = .ok b →
      ar.Sizeless a b → AsksSize (.chain introduced head (before ++ (.power, e) :: after)) scale
  | head {introduced : Bool} {head : Expr} {links : List Link} {scale : Int} :
      AsksSize head scale → AsksSize (.chain introduced head links) scale
  | operand {introduced : Bool} {head e : Expr} {before after : List Link} {op : Operator}
      {scale : Int} {a : Decimal} :
      eval ar (.chain introduced head before) scale = .ok a → AsksSize e scale →
      AsksSize (.chain introduced head (before ++ (op, e) :: after)) scale
  | argument {name : String} {procedure : Procedure} {es : List Expr} {e : Expr} {scale t : Int} :
      e ∈ es → AsksSize e t → procedure (argumentsOf ar es) scale = .error .sizeOfNonFinite →
      AsksSize (.call name procedure es) scale

end

theorem AsksSize.eval_eq {e : Expr} {scale : Int} (h : AsksSize ar e scale) :
    eval ar e scale = .error .sizeOfNonFinite := by
  induction h with
  | power ha hb hsize =>
    rw [eval_chain_append, ha, bind_ok, evalLinks_cons, hb, bind_ok, Operator.apply,
      hsize.power_eq]
    rfl
  | head _ ih =>
    rw [eval_chain_eq_bind, ih]
    rfl
  | operand ha _ ih =>
    rw [eval_chain_append, ha, bind_ok, evalLinks_cons, ih]
    rfl
  | argument _ _ hcall _ =>
    rw [eval, hcall]
    rfl

/-- **If the functions are discreet, nothing but a power without a size fails unexpectedly.** -/
theorem exists_unexpected_iff {e : Expr} (h : e.Discreet) (scale : Int) :
    (∃ f, eval ar e scale = .error f ∧ f.kind = .unexpected) ↔ AsksSize ar e scale := by
  refine ⟨?_, fun hsize ↦ ⟨_, hsize.eval_eq, rfl⟩⟩
  induction e using parts_induction generalizing scale with
  | step e ih =>
    rintro ⟨f, hf, hkind⟩
    cases e with
    | const d => cases hf
    | chain introduced head links =>
      obtain hhead | ⟨before, op, e, after, a, rfl, ha, he | ⟨b, hb, hop⟩⟩ :=
        eval_chain_eq_error hf
      · have hmem : head ∈ (chain introduced head links).parts := List.mem_cons_self
        exact .head (ih head hmem (h.part hmem) scale ⟨f, hhead, hkind⟩)
      · have hmem : e ∈ (chain introduced head (before ++ (op, e) :: after)).parts := by
          simp [parts]
        exact .operand ha (ih e hmem (h.part hmem) scale ⟨f, he, hkind⟩)
      · obtain ⟨rfl, hsize⟩ := Operator.apply_unexpected_iff.1 ⟨f, hop, hkind⟩
        exact .power ha hb hsize
    | call name procedure es =>
      obtain hcall | ⟨r, -, hr⟩ := bind_eq_error_iff.1 hf
      · have hdiscreet : procedure.Discreet es.length :=
          h ⟨name, procedure, es.length⟩ (by rw [calls_call]; exact List.mem_cons_self)
        obtain ⟨x, hx, t, ht⟩ :=
          hdiscreet _ scale f (length_argumentsOf es) hcall hkind
        obtain ⟨e, he, hvalue⟩ := mem_argumentsOf hx
        rw [hvalue] at ht
        have hsize := ih e he (h.part he) t ⟨f, ht, hkind⟩
        obtain rfl := Except.error.inj (ht.symm.trans hsize.eval_eq)
        exact .argument he hsize hcall
      · cases r with
        | decimal d => cases hr
        | integer n => cases hr
        | other kind =>
          cases hr
          cases hkind

end Expr

/-! ## Answers -/

namespace Parser

theorem level_of_mem_closingRecords {closings : List Char} {r : Record}
    (h : r ∈ closingRecords closings) : r.level = Level.debug := by
  obtain ⟨c, -, rfl⟩ := List.mem_map.1 h
  rfl

theorem level_rejection (e : ParseError) : (rejection e).level = Level.debug := by cases e <;> rfl

/-- What a reading reports is for those who look for the cause of an error. -/
theorem level_of_mem_parse {ctx : Reader.Context} {text : String} {r : Record}
    (h : r ∈ (parse ctx text).records) : r.level = Level.debug := by
  have hlast : ∀ {closings : List Char} {last : Record}, last.level = Level.debug →
      r ∈ closingRecords closings ++ [last] → r.level = Level.debug := by
    intro closings last hlast hr
    rcases List.mem_append.1 hr with hr | hr
    · exact level_of_mem_closingRecords hr
    · rw [List.mem_singleton.1 hr]
      exact hlast
  rcases lt_or_ge ctx.dialect.maxLength text.length with hlength | hlength
  · rw [parse_of_tooLong hlength] at h
    cases h
  · obtain hread | ⟨closings, e, hread⟩ | ⟨closings, u, hread, -⟩ | ⟨closings, e, hread⟩ :=
      parse_cases hlength
    · rw [hread] at h
      rw [List.mem_singleton.1 h]
      rfl
    · rw [hread] at h
      exact hlast (level_rejection e) h
    · rw [hread] at h
      exact level_of_mem_closingRecords h
    · rw [hread] at h
      exact hlast rfl h

end Parser

namespace Calculator

variable {c : Calculator}

/-- Is there anything among the records that should not have happened? -/
def Warns (records : List Record) : Prop := ∃ r ∈ records, Level.warning ≤ r.level

theorem warns_append {rs rs' : List Record} : Warns (rs ++ rs') ↔ Warns rs ∨ Warns rs' := by
  simp only [Warns, List.mem_append, or_and_right, exists_or]

theorem not_warns_of_level {rs : List Record} (h : ∀ r ∈ rs, r.level = Level.debug) :
    ¬ Warns rs := by
  rintro ⟨r, hr, hlevel⟩
  rw [h r hr] at hlevel
  exact absurd hlevel (by decide)

theorem level_of_mem_parse {text : Option String} {r : Record} (h : r ∈ (c.parse text).records) :
    r.level = Level.debug := by
  cases text with
  | none => cases h
  | some s =>
    rw [parse] at h
    split at h
    · cases h
    · exact Parser.level_of_mem_parse h

/-- An answer comes with a warning exactly if the failure is not expected. -/
theorem warns_answer_iff {text : String} {e : Expr} :
    Warns (c.answer text e).records ↔
      ∃ f, c.valueOf e = .error f ∧ f.kind = .unexpected := by
  have hnote : ∀ message, ¬ Warns [note message] := fun message ↦
    not_warns_of_level fun r hr ↦ by rw [List.mem_singleton.1 hr]; rfl
  rw [answer]
  dsimp only
  cases h : c.valueOf e with
  | ok d => exact iff_of_false (hnote _) (by simp)
  | error f =>
    have hsurprise : Warns (if f.kind = .unexpected then
        [Record.warning "calculator"
          s!"evaluating {Text.quotedString text} failed unexpectedly"] else []) ↔
          ∃ g, Except.error (α := Decimal) f = .error g ∧ g.kind = .unexpected := by
      split
      · rename_i hkind
        exact iff_of_true ⟨_, List.mem_singleton_self _, le_rfl⟩ ⟨f, rfl, hkind⟩
      · rename_i hkind
        refine iff_of_false (by simp [Warns]) ?_
        rintro ⟨g, hg, hunexpected⟩
        cases hg
        exact hkind hunexpected
    dsimp only
    cases tokenOf f with
    | error escape => exact hsurprise
    | ok token => exact warns_append.trans ((or_iff_left (hnote _)).trans hsurprise)

theorem warns_evaluate_iff {text : Option String} :
    Warns (c.evaluate text).records ↔ ∃ e, (c.parse text).value = .ok (some e) ∧
      ∃ f, c.valueOf e = .error f ∧ f.kind = .unexpected := by
  have hparse : ¬ Warns (c.parse text).records := not_warns_of_level fun _ ↦ level_of_mem_parse
  cases text with
  | none => exact iff_of_false hparse (by simp [parse, Logged.quiet])
  | some s =>
    rw [evaluate]
    dsimp only
    cases h : (c.parse (some s)).value with
    | ok e =>
      cases e with
      | none => exact iff_of_false hparse (by simp)
      | some e =>
        rw [warns_append, or_iff_right hparse, warns_answer_iff]
        simp
    | error u =>
      cases u with
      | rejected e =>
        rw [warns_append, or_iff_right hparse]
        refine iff_of_false (not_warns_of_level fun r hr ↦ ?_) (by simp)
        rw [List.mem_singleton.1 hr]
        rfl
      | uncounted f => exact iff_of_false hparse (by simp)
      | exhausted x => exact iff_of_false hparse (by simp)

/-- A value is not expected to be missing because the host has no room to show the expression. -/
theorem valueOf_unexpected_iff {e : Expr} :
    (∃ f, c.valueOf e = .error f ∧ f.kind = .unexpected) ↔
      (∃ x, c.host.renderingFault? e = some x) ∨
        ∃ f, eval c.arithmetic e c.scale = .error f ∧ f.kind = .unexpected := by
  cases hx : c.host.renderingFault? e with
  | none => rw [valueOf_eq_eval hx]; simp
  | some x =>
    refine iff_of_true ⟨failureOf x, ?_, rfl⟩ (.inl ⟨x, rfl⟩)
    rw [valueOf, shown, hx]
    rfl

/-- The functions of the calculator are discreet. -/
def Discreet (c : Calculator) : Prop :=
  ∀ d ∈ c.functions.declarations, d.procedure.Discreet d.arity.count

/-- So are the functions that are called in what it reads. -/
theorem Discreet.of_parse (h : c.Discreet) (hfunctions : c.functions.WellFormed)
    {text : Option String} {e : Expr} (he : (c.parse text).value = .ok (some e)) : e.Discreet := by
  intro b hb
  obtain ⟨d, hd, rfl⟩ := exists_declaration_of_parse hfunctions he b hb
  exact h d hd

/-- **What is not expected.**  An operator fails unexpectedly exactly if it is a power with a whole
exponent within the bound and a base that is not finite; on all other operands, and for all other
operators, it has a value or a failure that belongs to its arithmetic.  An expression whose
functions are discreet fails unexpectedly exactly if its evaluation ends with such a power.  And a
calculator whose functions are discreet warns of a text exactly in this case, and if the host has no
room to show the expression of the text. -/
theorem unexpected_iff (hfunctions : c.functions.WellFormed) (hdiscreet : c.Discreet) :
    (∀ (op : Operator) (a b : Decimal) (scale : Int),
        (∃ f, op.apply c.arithmetic a b scale = .error f ∧ f.kind = .unexpected) ↔
          op = .power ∧ a.isFinite = false ∧ b.isFinite ∧
            ∃ n : Int, b.toRat = n ∧ (n.natAbs : Int) ≤ c.arithmetic.maxExactExponent) ∧
      (∀ (e : Expr) (scale : Int), e.Discreet →
        ((∃ f, eval c.arithmetic e scale = .error f ∧ f.kind = .unexpected) ↔
          AsksSize c.arithmetic e scale)) ∧
      ∀ text : Option String, (∃ r ∈ (c.evaluate text).records, Level.warning ≤ r.level) ↔
        (∃ x, c.CannotShow text x) ∨
          ∃ e, (c.parse text).value = .ok (some e) ∧ AsksSize c.arithmetic e c.scale := by
  refine ⟨fun op a b scale ↦ ?_, fun e scale he ↦ exists_unexpected_iff he scale, fun text ↦ ?_⟩
  · rw [Operator.apply_unexpected_iff]
    exact and_congr_right fun _ ↦
      ⟨fun h ↦ ⟨h.not_finite, h.finite, h.whole⟩, fun ⟨ha, hb, hn⟩ ↦ ⟨ha, hb, hn⟩⟩
  · have hvalue : ∀ e, (c.parse text).value = .ok (some e) →
        ((∃ f, c.valueOf e = .error f ∧ f.kind = .unexpected) ↔
          (∃ x, c.host.renderingFault? e = some x) ∨ AsksSize c.arithmetic e c.scale) :=
      fun e he ↦ valueOf_unexpected_iff.trans
        (or_congr_right (exists_unexpected_iff (hdiscreet.of_parse hfunctions he) c.scale))
    refine warns_evaluate_iff.trans ⟨?_, ?_⟩
    · rintro ⟨e, he, hfails⟩
      exact ((hvalue e he).1 hfails).imp (fun ⟨x, hx⟩ ↦ ⟨x, e, he, hx⟩) fun h ↦ ⟨e, he, h⟩
    · rintro (⟨x, e, he, hx⟩ | ⟨e, he, hsize⟩)
      · exact ⟨e, he, (hvalue e he).2 (.inl ⟨x, hx⟩)⟩
      · exact ⟨e, he, (hvalue e he).2 (.inr hsize)⟩

/-! ## A function that returns an infinity -/

/-- A function that returns an infinity without looking at its argument. -/
def limitless : Declaration := ⟨"Inf", ⟨1, .whole⟩, fun _ _ ↦ .ok (.decimal (.infinity false))⟩

/-- A calculator with this function after the built-in ones. -/
def boundless : Calculator where
  scale := 10
  dialect := ⟨false, 100, 10000, 10000⟩
  functions :=
    ⟨(Registry.builtins (Settings.standard.arithmetic .native)).declarations ++ [limitless]⟩
  arithmetic := Settings.standard.arithmetic .native
  host := .native

/-- The function that is added returns nothing but decimals. -/
theorem discreet_boundless : boundless.Discreet := by
  intro d hd
  obtain hd | hd := List.mem_append.1 hd
  · exact discreet_builtins _ d hd
  · obtain rfl := List.mem_singleton.1 hd
    exact .of_forall fun _ _ _ ↦ .inl ⟨_, rfl⟩

theorem wellFormed_boundless : boundless.functions.WellFormed := by
  have hname : isName "Inf" := by decide
  intro d hd
  obtain hd | hd := List.mem_append.1 hd
  · exact Registry.wellFormed_builtins _ d hd
  · obtain rfl := List.mem_singleton.1 hd
    exact ⟨hname, by decide, by decide⟩

/-- `inf(7) ^ 2`, grouped by tiers or as it is written. -/
def limitlessSquare : Expr :=
  .chain false (limitless.call [.const (finite false 7 0)]) [(.power, .const (finite false 2 0))]

theorem parse_limitlessSquare :
    (boundless.parse (some "inf(7) ^ 2")).value = .ok (some limitlessSquare) := by
  have hlexemes : Grammar.lexemes false "inf(7) ^ 2" =
      ([] ++ Lexeme.name ['i', 'n', 'f'] :: Lexeme.symbol '(' :: [Lexeme.number ['7']] ++
        [Lexeme.symbol ')']) ++ Lexeme.symbol '^' :: [Lexeme.number ['2']] := by
    decide +kernel
  have hlookup : boundless.context.functions.lookup? (String.ofList ['i', 'n', 'f']) =
      some limitless :=
    (List.find?_cons_of_neg (by decide +kernel)).trans
      ((List.find?_cons_of_neg (by decide +kernel)).trans
        ((List.find?_cons_of_neg (by decide +kernel)).trans
          (List.find?_cons_of_pos (by decide +kernel))))
  have hspells : Grammar.Spells boundless.context 1 (Grammar.lexemes false "inf(7) ^ 2")
      limitlessSquare := by
    rw [hlexemes]
    exact ⟨_, _, .link .power
      (.single (.call (.nil _) rfl hlookup rfl
        (.first (.single (.digit (by decide) 0 (show 7 < 10 by decide))))))
      (.digit (by decide) 1 (show 2 < 10 by decide)), rfl⟩
  have hfits : boundless.Fits "inf(7) ^ 2" :=
    fits_of_native wellFormed_boundless rfl (Int.le_refl _) _
  exact hfits.parse_of_parseRaw (hfits.parseRaw_of_spells (by decide) (by decide) hspells)

/-- The square of an infinity has no size. -/
theorem sizeless_infinitySquared :
    boundless.arithmetic.Sizeless (infinity false) (finite false 2 0) :=
  ⟨rfl, rfl, 2, by rw [toRat_finite]; norm_num [signed], by decide⟩

/-- So the calculator warns of `inf(7) ^ 2`, and the half of an infinity is an expected failure. -/
theorem unexpected_iff_boundless :
    boundless.functions.WellFormed ∧ boundless.Discreet ∧
      AsksSize boundless.arithmetic limitlessSquare 10 ∧
      (∃ r ∈ (boundless.evaluate (some "inf(7) ^ 2")).records, Level.warning ≤ r.level) ∧
      ¬ ∃ f, Operator.divide.apply boundless.arithmetic (infinity false) (finite false 2 0) 10 =
        .error f ∧ f.kind = .unexpected := by
  have hsize : AsksSize boundless.arithmetic limitlessSquare 10 :=
    @AsksSize.power _ _ _ _ [] [] _ (infinity false) (finite false 2 0) rfl rfl
      sizeless_infinitySquared
  obtain ⟨hoperator, -, htext⟩ := unexpected_iff wellFormed_boundless discreet_boundless
  exact ⟨wellFormed_boundless, discreet_boundless, hsize,
    (htext (some "inf(7) ^ 2")).2 (.inr ⟨_, parse_limitlessSquare, hsize⟩),
    fun h ↦ by simpa using ((hoperator .divide _ _ 10).1 h).1⟩

/-- The square of an infinity is an operation on decimals, and its failure is an unexpected one. -/
theorem not_expected_infinitySquared :
    ∃ f, Operator.power.apply (Settings.standard.arithmetic .native) (infinity false)
      (finite false 2 0) 10 = .error f ∧ f.kind = .unexpected :=
  Operator.apply_unexpected_iff.2 ⟨rfl, sizeless_infinitySquared⟩

end Calculator

end Formula
