import Formula.Proofs.Numeric.Equality
import Formula.Proofs.Numeric.Evaluation
import Formula.Proofs.Rendering.Reparse
import Formula.Proofs.Room

/-!
# Calculating what was rendered

What was rendered can be entered again (`Formula.Proofs.Rendering.Reparse`).  Does it come to the
same?  The constants are in plain form then, which denotes the same numbers
(`Decimal.equal_plainForm`), so the two expressions are similar (`Writable.similar`), and their
outcomes agree as far as those of the powers do.

* `calculate_inputText` — the main result: under the standard limits the output for what was
  rendered is that for the text, or shows an equal number, if the powers that are met settle and the
  host has room for both.
* `not_agree_zeroPower` — without a condition on powers this is not so.  The estimate of the size of
  a power counts the zeros that a positive exponent stands for, even if there is nothing in front of
  them, and the plain form of a zero has none.
-/

set_option autoImplicit false

-- Powers are those of the core library.
attribute [local instance (high)] instPowNat

namespace Formula

open Reader Formula.Expr Grammar

/-! ## Similar expressions -/

/-- Zero times anything has no sign to lose. -/
theorem Decimal.signed_and_ne_zero (s : Bool) (c k : Nat) :
    signed (s && c ≠ 0) (c * k) = signed s (c * k) := by
  by_cases hc : c = 0
  · rw [hc, Nat.zero_mul, signed_zero, signed_zero]
  · rw [decide_eq_true hc, Bool.and_true]

/-- **The plain form of a decimal denotes the same number.** -/
theorem Decimal.equal_plainForm {d : Decimal} (h : d.isFinite) : d.Equal d.plainForm := by
  match d, h with
  | finite s c e, _ =>
    rcases lt_or_ge e 0 with he | he
    · have hsigned := signed_and_ne_zero s c 1
      rw [Nat.mul_one] at hsigned
      rw [plainForm_of_neg he]
      exact ⟨rfl, rfl, by rw [toRat_finite, toRat_finite, hsigned]⟩
    · rw [plainForm_of_nonneg he]
      refine ⟨rfl, rfl, ?_⟩
      rw [toRat_of_nonneg he, toRat_finite, signed_and_ne_zero, zpow_zero, mul_one]

namespace Grammar

variable {ar : Arithmetic} {ctx : Context}

theorem similarLinks_plainLinks {links : List Link}
    (h : ∀ l ∈ links, Similar ar l.2 l.2.plainForm) : SimilarLinks ar links (plainLinks links) := by
  induction links with
  | nil => exact .nil
  | cons l links ih =>
    obtain ⟨op, e⟩ := l
    exact .cons op (h _ List.mem_cons_self) (ih fun l hl ↦ h l (List.mem_cons_of_mem _ hl))

/-- **An expression is similar to its plain form**, if it calls no functions but the built-in
ones. -/
theorem Writable.similar (hfunctions : ctx.functions = .builtins ar) {e : Expr}
    (h : Writable ctx e) : Similar ar e e.plainForm := by
  induction h with
  | @const d hd =>
    refine .const (Decimal.equal_plainForm ?_)
    cases d with
    | finite => rfl
    | infinity => exact hd.elim
    | nan => exact hd.elim
  | chain _ _ hhead hlinks => exact .chain hhead (similarLinks_plainLinks hlinks)
  | @call f es _ hf _ hlength _ hes =>
    rw [hfunctions] at hf
    have hmem := List.mem_of_find?_eq_some hf
    simp only [Registry.builtins, List.mem_cons, List.not_mem_nil, or_false] at hmem
    rcases hmem with rfl | rfl | rfl
    · obtain ⟨x, rfl⟩ := List.length_eq_one_iff.1 hlength
      exact .sine (hes x (by simp))
    · obtain ⟨c, x, y, rfl⟩ := List.length_eq_three.1 hlength
      exact .choose (hes c (by simp)) (hes x (by simp)) (hes y (by simp))
    · obtain ⟨x, n, rfl⟩ := List.length_eq_two.1 hlength
      exact .round (hes x (by simp)) (hes n (by simp))

/-! ## Texts that are not blank -/

/-- The text of an expression has a digit in it or a parenthesis. -/
theorem Writable.exists_not_isBlank (hfunctions : ctx.functions.WellFormed) {e : Expr}
    (h : Writable ctx e) : ∃ c ∈ e.unbraced, Text.isBlank c = false := by
  cases h with
  | @const d hd =>
    cases d with
    | infinity => exact hd.elim
    | nan => exact hd.elim
    | finite s c e =>
      obtain ⟨x, xs, hx, hdigit⟩ := exists_cons_plainDigits c e
      refine ⟨x, ?_, not_isBlank_of_isDigit hdigit⟩
      rw [unbraced_const hd, Decimal.plain, hx]
      split <;> simp
  | chain =>
    rw [unbraced_chain]
    exact ⟨'(', by simp, by decide⟩
  | call _ hf =>
    rw [unbraced_call (hfunctions.of_lookup? hf).1]
    exact ⟨'(', by simp, by decide⟩

end Grammar

namespace Calculator

theorem isBlank_inputText {ctx : Context} {head : Expr} {links : List Link}
    (hfunctions : ctx.functions.WellFormed) (h : Writable ctx (.chain false head links)) :
    isBlank (Expr.chain false head links).inputText = false := by
  cases h with
  | chain hhead _ =>
    obtain ⟨c, hc, hblank⟩ := hhead.exists_not_isBlank hfunctions
    refine isBlank_eq_false ?_ hblank
    rw [inputText_chain, String.toList_ofList]
    exact List.mem_append_left _ hc

/-! ## Outputs -/

theorem wellFormed_of_standard {settings : Settings} {host : Host} {scale : Value}
    {strict : Bool} {c : Calculator} (h : standard settings host scale strict = .ok c) :
    c.context.functions.WellFormed := by
  rw [context, (standard_spec h).2.1]
  exact Registry.wellFormed_builtins _

/-- The output for what was rendered is that of the plain form. -/
theorem calculate_inputText_eq {host : Host} {scale : Value} {c : Calculator}
    (hc : standard .standard host scale false = .ok c) {text : String} {e : Expr}
    (hread : (c.parseRaw (some text)).value = .ok (some e))
    (hlength : (e.inputText.length : Int) ≤ Settings.standard.maxInputLength)
    (hdepth : (nesting 0 e.inputText.toList : Int) ≤ Settings.standard.maxNestingDepth)
    (hfits : c.Fits e.inputText) :
    (c.calculate (some e.inputText)).value =
      outputOf (e.plainForm.group.eval c.arithmetic c.scale) := by
  have hfunctions := wellFormed_of_standard hc
  obtain ⟨-, -, hdialect, -⟩ := standard_spec hc
  obtain ⟨-, hparse⟩ := parseRaw_of_calculator hread
  obtain ⟨hwritable, head, links, rfl⟩ := writable_of_parseRaw hfunctions hparse
  have hparse : (c.parseRaw (some (Expr.chain false head links).inputText)).value =
      (Parser.parseRaw c.context (Expr.chain false head links).inputText).value := by
    rw [parseRaw, if_neg (by simp [isBlank_inputText hfunctions hwritable])]
  obtain h | ⟨-, h⟩ := hwritable.parseRaw_chain hfunctions
    (by rw [context, hdialect]; exact hlength) (by rw [context, hdialect]; exact hdepth)
  · exact hfits.calculate_of_parseRaw (hparse.trans h)
  · exact absurd (hparse.trans h) hfits.reads

/-- **What was rendered comes to the same.**  Let `e` be the expression of a text as it is written,
and let its rendering be within the limits.  Then the output for the text and the one for the
rendering are those of outcomes that agree: equal numbers, or the same failure.  The condition is
that the powers that the two evaluations meet in the same place are both computed exactly, or both
by the machine, or come to the same, and that the host has room for both texts. -/
theorem calculate_inputText {host : Host} (hzero : host.elementary.IgnoresZeroSigns)
    {scale : Value} {c : Calculator} (hc : standard .standard host scale false = .ok c)
    {text : String} {e : Expr} (hread : (c.parseRaw (some text)).value = .ok (some e))
    (hlength : (e.inputText.length : Int) ≤ Settings.standard.maxInputLength)
    (hdepth : (nesting 0 e.inputText.toList : Int) ≤ Settings.standard.maxNestingDepth)
    (hfits : c.Fits text) (hfits' : c.Fits e.inputText)
    (hsteady : Steady c.arithmetic e.group e.plainForm.group c.scale) :
    ∃ x y, Agree x y ∧ (c.calculate (some text)).value = outputOf x ∧
      (c.calculate (some e.inputText)).value = outputOf y := by
  obtain ⟨har, hbuiltins, -⟩ := standard_spec hc
  obtain ⟨-, hparse⟩ := parseRaw_of_calculator hread
  obtain ⟨hwritable, -⟩ := writable_of_parseRaw (wellFormed_of_standard hc) hparse
  have hagree := (hwritable.similar hbuiltins).group.eval_agree (har ▸ hzero) c.scale hsteady
  exact ⟨_, _, hagree, hfits.calculate_of_parseRaw hread,
    calculate_inputText_eq hc hread hlength hdepth hfits'⟩

/-! ## A zero to a fractional power -/

/-- A power of two numbers meets no powers but itself. -/
theorem steady_power {ar : Arithmetic} {a a' b b' : Decimal} {scale : Int}
    (h : PowerAt.Settles ar ⟨a, b, scale⟩ ⟨a', b', scale⟩) :
    Steady ar (.chain false (.const a) [(.power, .const b)])
      (.chain false (.const a') [(.power, .const b')]) scale := by
  intro p q hmeets
  cases hmeets with
  | head hhead => cases hhead
  | links ha ha' hlinks =>
    cases ha
    cases ha'
    cases hlinks with
    | operand hoperand => cases hoperand
    | power hb hb' =>
      cases hb
      cases hb'
      exact h
    | rest _ _ _ _ hrest => cases hrest

/-- `-0 ^ 0.5` as it is written. -/
def zeroRoot : Expr :=
  .chain false (.const (.finite true 0 0)) [(.power, .const (.finite false 5 (-1)))]

/-- A power of two numbers is read from its lexemes. -/
theorem parseRaw_power (host : Host) {text : String} {ss ss' : List Lexeme}
    {word word' : List Char} {negative negative' : Bool} {d d' : Decimal}
    (hlength : (text.length : Int) ≤ 10000)
    (hlexemes : lexemes false text =
      (ss ++ [.number word]) ++ .symbol '^' :: (ss' ++ [.number word']))
    (hsigns : Signs standardContext.dialect ss negative)
    (hsigns' : Signs standardContext.dialect ss' negative')
    (hliteral : Literal standardContext.dialect word d)
    (hliteral' : Literal standardContext.dialect word' d') :
    ((standardOn host).parseRaw (some text)).value =
      .ok (some (.chain false (signedNumber negative d)
        [(.power, signedNumber negative' d')])) := by
  have hspells : Spells (standardOn host).context 0 (lexemes false text)
      (.chain false (signedNumber negative d) [(.power, signedNumber negative' d')]) := by
    rw [hlexemes]
    exact ⟨_, _, .link .power (.single (.number hsigns hliteral)) (.number hsigns' hliteral'), rfl⟩
  exact parseRaw_of_spells hlength (show ((0 : Nat) : Int) ≤ 100 by decide) Host.follows_zero
    hspells

theorem parseRaw_zeroRoot (host : Host) :
    ((standardOn host).parseRaw (some "-0 ^ 0.5")).value = .ok (some zeroRoot) := by
  have hlexemes : lexemes false "-0 ^ 0.5" =
      ([] ++ [Lexeme.symbol '-'] ++ [Lexeme.number ['0']]) ++
        Lexeme.symbol '^' :: ([] ++ [Lexeme.number ['0', '.', '5']]) := by
    decide +kernel
  have hzero : Literal standardContext.dialect [Nat.digitChar 0] (.finite false 0 0) :=
    .digit (by decide) (by decide)
  have hhalf : Bounded standardContext.dialect (.finite false 5 (-1)) :=
    ⟨by decide, by decide +kernel, by decide, by decide +kernel⟩
  have hword : Decimal.plainDigits 5 (-1) = ['0', '.', '5'] := by decide +kernel
  have hliteral := Literal.plainDigits hhalf
  rw [hword] at hliteral
  exact parseRaw_power host (by decide) hlexemes
    ((Signs.nil _).minus rfl) (.nil _) hzero hliteral

/-- A host with this machine. -/
def zeroHost : Host := .framed zeroMachine 8000 none

theorem fits_zeroHost (text : String) : (standardOn zeroHost).Fits text :=
  fits_standardOn (by decide) text

/-- The sign of a zero is lost, and the root of the zero is still zero. -/
theorem calculate_inputText_zeroRoot :
    zeroRoot.inputText = "0 ^ 0.5" ∧
      ∃ x y, Agree x y ∧
        ((standardOn zeroHost).calculate (some "-0 ^ 0.5")).value = outputOf x ∧
        ((standardOn zeroHost).calculate (some zeroRoot.inputText)).value = outputOf y := by
  have htext : zeroRoot.inputText = "0 ^ 0.5" := by decide +kernel
  refine ⟨htext, calculate_inputText ignoresZeroSigns_zeroMachine (standard_eq zeroHost)
    (parseRaw_zeroRoot zeroHost) ?_ ?_ (fits_zeroHost _) (fits_zeroHost _) ?_⟩
  · rw [htext]
    decide
  · rw [htext]
    decide
  · exact steady_power (.inl (by decide +kernel))

/-! ## A power that does not settle -/

theorem eval_power {ar : Arithmetic} (a b : Decimal) (scale : Int) :
    Expr.eval ar (.chain false (.const a) [(.power, .const b)]) scale = ar.power a b scale := by
  change (ar.power a b scale).bind Except.ok = _
  cases ar.power a b scale <;> rfl

/-- A number is not shown as the error token of a division by zero. -/
theorem outputOf_ne_divisionToken {d : Decimal} (h : d.isFinite) :
    outputOf (.ok d) ≠ .ok Failure.divisionToken := by
  match d, h with
  | .finite s c e, _ =>
    obtain ⟨x, xs, hx, hdigit⟩ := exists_cons_plainDigits c e
    intro htoken
    have hplain := congrArg String.toList (Except.ok.inj htoken)
    rw [String.toList_ofList, Decimal.plain, hx] at hplain
    have htoken : Failure.divisionToken.toList = ['#', 'D', 'I', 'V', '0'] := by decide
    rw [htoken] at hplain
    split at hplain
    · exact absurd (List.cons.inj hplain).1 (by decide)
    · rw [(List.cons.inj hplain).1] at hdigit
      exact absurd hdigit (by decide)

/-- **Outcomes that agree are both divisions by zero by their outputs, or neither.** -/
theorem outputOf_eq_divisionToken_iff {x y : Except Failure Decimal} (h : Agree x y) :
    outputOf x = .ok Failure.divisionToken ↔ outputOf y = .ok Failure.divisionToken := by
  cases h with
  | ok h =>
    exact iff_of_false (outputOf_ne_divisionToken h.left) (outputOf_ne_divisionToken h.right)
  | error f => exact Iff.rfl

section

variable (host : Host)

/-- `0e20 ^ -10000` as it is written. -/
def zeroPower : Expr :=
  .chain false (.const (.finite false 0 20)) [(.power, .const (.finite true 10000 0))]

theorem parseRaw_zeroPower :
    ((standardOn host).parseRaw (some "0e20 ^ -10000")).value = .ok (some zeroPower) := by
  have hlexemes : lexemes false "0e20 ^ -10000" =
      ([] ++ [Lexeme.number ['0', 'e', '2', '0']]) ++
        Lexeme.symbol '^' ::
          ([] ++ [Lexeme.symbol '-'] ++ [Lexeme.number ['1', '0', '0', '0', '0']]) := by
    decide +kernel
  have hzero : Literal standardContext.dialect (['0'] ++ ['e', '2', '0']) (.finite false 0 20) :=
    .intro (.whole (by simp) (by simp)) (.some (.inl rfl) (by simp) (by simp)) rfl rfl
      (by decide) (by decide +kernel) (by decide) (by decide +kernel)
  have hbound : Bounded standardContext.dialect (.finite false 10000 0) :=
    ⟨by decide, by decide +kernel, by decide, by decide +kernel⟩
  have hword : Decimal.plainDigits 10000 0 = ['1', '0', '0', '0', '0'] := by decide +kernel
  have hlarge := Literal.plainDigits hbound
  rw [hword] at hlarge
  exact parseRaw_power host (by decide) hlexemes (.nil _)
    ((Signs.nil _).minus rfl) hzero hlarge

theorem inputText_zeroPower : zeroPower.inputText = "0 ^ -10000" := by decide +kernel

theorem calculate_inputText_eq_divisionToken (hfits : (standardOn host).Fits "0 ^ -10000") :
    ((standardOn host).calculate (some "0 ^ -10000")).value = .ok Failure.divisionToken := by
  have h := calculate_inputText_eq (standard_eq host) (parseRaw_zeroPower host)
    (by rw [inputText_zeroPower]; decide) (by rw [inputText_zeroPower]; decide)
    (by rw [inputText_zeroPower]; exact hfits)
  have heval : zeroPower.plainForm.group.eval (Settings.standard.arithmetic host.elementary) 10 =
      .error .divisionByZero :=
    (eval_power _ _ 10).trans (power_plainForm_zeroPower host.elementary 10)
  rw [inputText_zeroPower] at h
  exact h.trans (congrArg outputOf heval)

/-- **The machine does not report a division by zero**, whatever else it makes of the power. -/
theorem calculate_zeroPower_ne_divisionToken (hfits : (standardOn host).Fits "0e20 ^ -10000") :
    ((standardOn host).calculate (some "0e20 ^ -10000")).value ≠ .ok Failure.divisionToken := by
  have heval : zeroPower.group.eval (Settings.standard.arithmetic host.elementary) 10 =
      (Settings.standard.arithmetic host.elementary).roundedPower (.finite false 0 20)
        (.finite true 10000 0) 10 :=
    (eval_power _ _ 10).trans (power_zeroPower host.elementary 10)
  rw [hfits.calculate_of_parseRaw (parseRaw_zeroPower host)]
  intro houtput
  change outputOf (zeroPower.group.eval (Settings.standard.arithmetic host.elementary) 10) = _
    at houtput
  rw [heval] at houtput
  rcases @roundedPower_cases (Settings.standard.arithmetic host.elementary) (.finite false 0 20)
    (.finite true 10000 0) 10 with ⟨d, hd, hfinite⟩ | ⟨cause, hcause⟩
  · rw [hd] at houtput
    exact outputOf_ne_divisionToken hfinite houtput
  · rw [hcause] at houtput
    revert houtput
    cases cause <;> decide

end

/-- Without a condition on powers this is not so: what was rendered is a division by zero for the
calculator, and the text is not. -/
theorem not_agree_zeroPower :
    standard .standard .native .null false = .ok (standardOn .native) ∧
      ((standardOn .native).parseRaw (some "0e20 ^ -10000")).value = .ok (some zeroPower) ∧
      zeroPower.inputText = "0 ^ -10000" ∧
      ¬ ∃ x y, Agree x y ∧
        ((standardOn .native).calculate (some "0e20 ^ -10000")).value = outputOf x ∧
        ((standardOn .native).calculate (some "0 ^ -10000")).value = outputOf y := by
  refine ⟨standard_eq _, parseRaw_zeroPower _, inputText_zeroPower, ?_⟩
  rintro ⟨x, y, hagree, hx, hy⟩
  rw [calculate_inputText_eq_divisionToken _ (fits_standardOn_native _)] at hy
  exact calculate_zeroPower_ne_divisionToken _ (fits_standardOn_native _)
    (hx.trans ((outputOf_eq_divisionToken_iff hagree).2 hy.symm))

end Calculator

end Formula
