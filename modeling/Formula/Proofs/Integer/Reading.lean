import Formula.Proofs.Integer
import Formula.Proofs.Grammar.Literal
import Formula.Proofs.Numeric.Whole
import Formula.Proofs.Precedence.Phrases

/-!
# Integer expressions are read and computed

The rules of integer expressions are followed one by one, and each says two things about the lexemes
that it derives: they spell a chain (`Grammar.Chain`), and reading that chain by its tiers
(`Expr.phrase`) comes to the integer, as a decimal with the exponent zero.

Rules of the grammar grow at their right end, and so does what has been read
(`Formula.Proofs.Precedence.Phrases`).

* `Integer.Sum.denotes` — the main result of this file.
-/

set_option autoImplicit false

-- Powers are those of the core library.
attribute [local instance (high)] instPowNat

namespace Formula

/-- Whole numbers stay whole numbers with a sign in front of them. -/
theorem Decimal.Whole.signed {d : Decimal} {z : Int} (hd : d.Whole z) (negative : Bool) :
    ∃ d', Expr.Outcome.signed negative (.ok d) = .ok d' ∧
      d'.Whole (Integer.withSign negative z) := by
  cases negative with
  | false => exact ⟨d, rfl, hd⟩
  | true => exact ⟨d.negate, rfl, hd.negate⟩

/-! ## Chains that are spelled -/

namespace Grammar

variable {ctx : Reader.Context}

/-- Two chains with an operator between them are a chain. -/
theorem Chain.append {n : Nat} {ls : List Lexeme} {head : Expr} {links : List Link}
    (h : Chain ctx n ls head links) (op : Operator) :
    ∀ {ms : List Lexeme} {head' : Expr} {links' : List Link}, Chain ctx n ms head' links' →
      Chain ctx n (ls ++ .symbol op.symbol :: ms) head (links ++ (op, head') :: links')
  | _, _, _, .single hoperand => h.link op hoperand
  | _, _, _, .link op' hchain hoperand => by
    have hlonger := (h.append op hchain).link op' hoperand
    rwa [List.append_assoc, List.append_assoc] at hlonger

/-- A word of digits is a literal, unless it is longer than the bound for exponents. -/
theorem literal_of_isDigit {dialect : Dialect} {word : List Char} (hne : word ≠ [])
    (hdigits : ∀ c ∈ word, c.isDigit) (hlength : (word.length : Int) ≤ dialect.maxLiteralExponent)
    (hbound : dialect.maxLiteralExponent ≤ Decimal.largestExponent) :
    Literal dialect word (.finite false (Digits.value word) 0) := by
  have hcount := Digits.count_value_le hne hdigits
  have hpos := Digits.count_pos (Digits.value word)
  have hmagnitude : ((Decimal.magnitude (Digits.value word) 0).natAbs : Int) ≤
      dialect.maxLiteralExponent := by
    rw [Decimal.magnitude]
    omega
  have hliteral : Literal dialect (word ++ []) (.finite false (Digits.value word) 0) :=
    .intro (.whole hne hdigits) .none (by rw [List.append_nil]) rfl
      (fun _ ↦ by rw [List.append_nil]; exact hdigits) hmagnitude
      (Int.le_trans (Int.natCast_nonneg _) hlength) (fits_of_magnitude_le false hbound hmagnitude)
  rwa [List.append_nil] at hliteral

end Grammar

/-! ## Integer expressions -/

namespace Integer

open Formula.Expr

section

variable (ctx : Reader.Context) (ar : Arithmetic) (scale : Int)

/-- The lexemes spell a chain, and reading its steps comes to the integer. -/
inductive Denotes (reads : Outcome → List Step → Outcome → Prop) (n : Nat) (ls : List Lexeme)
    (z : Int) : Prop
  | intro {head : Expr} {links : List Link} {d : Decimal}
      (spelled : Grammar.Chain ctx n ls head links) (byValue : (chain false head links).ByValue)
      (whole : d.Whole z)
      (read : reads (worth ar head scale) (worthLinks ar links scale) (.ok d))

end

/-- The numbers among the lexemes are not longer than the bound for exponents. -/
def NumbersFit (dialect : Dialect) (ls : List Lexeme) : Prop :=
  ∀ word, .number word ∈ ls → (word.length : Int) ≤ dialect.maxLiteralExponent

/-- A symbol between two lists of lexemes is no number. -/
theorem numbersFit_append {dialect : Dialect} {ls ms : List Lexeme} {c : Char} :
    NumbersFit dialect (ls ++ .symbol c :: ms) ↔ NumbersFit dialect ls ∧ NumbersFit dialect ms := by
  simp only [NumbersFit, List.mem_append, List.mem_cons, reduceCtorEq, false_or]
  exact ⟨fun h ↦ ⟨fun word hl ↦ h word (.inl hl), fun word hm ↦ h word (.inr hm)⟩,
    fun h word hword ↦ hword.elim (h.1 word) (h.2 word)⟩

variable {ctx : Reader.Context} {ar : Arithmetic} {scale : Int}

theorem Denotes.mono {reads reads' : Outcome → List Step → Outcome → Prop} {n : Nat}
    {ls : List Lexeme} {z : Int} (h : Denotes ctx ar scale reads n ls z)
    (hreads : ∀ {x ss out}, reads x ss out → reads' x ss out) :
    Denotes ctx ar scale reads' n ls z := by
  obtain ⟨hchain, hvalue, hwhole, hread⟩ := h
  exact ⟨hchain, hvalue, hwhole, hreads hread⟩

/-- An operator between two integer expressions. -/
theorem Denotes.link {tier n : Nat} {part : Phrase.Reader} {ls ms : List Lexeme} {a b c : Int}
    (h : Denotes ctx ar scale (Leads ar scale tier part) n ls a)
    (h' : Denotes ctx ar scale (Takes (tier + 1) part) n ms b) (op : Operator)
    (hop : op.tier = tier)
    (happly : ∀ {d e : Decimal}, d.Whole a → e.Whole b →
      ∃ r, op.apply ar d e scale = .ok r ∧ r.Whole c) :
    Denotes ctx ar scale (Leads ar scale tier part) n (ls ++ .symbol op.symbol :: ms) c := by
  obtain ⟨hchain, ⟨hhead, hlinks⟩, hd, hread⟩ := h
  obtain ⟨hchain', ⟨hhead', hlinks'⟩, he, hread'⟩ := h'
  obtain ⟨r, hr, hwhole⟩ := happly hd he
  refine ⟨hchain.append op hchain', ⟨hhead, hlinks.append ⟨hhead', hlinks'⟩⟩, hwhole, ?_⟩
  rw [worthLinks_append, worthLinks, ← hr]
  exact hread.link hop hread'

/-- The chain of a sum is worth the integer. -/
theorem Denotes.worth_eq {n : Nat} {ls : List Lexeme} {z : Int}
    (h : Denotes ctx ar scale (Leads ar scale 0 (product ar scale)) n ls z) :
    ∃ head links d, Grammar.Chain ctx n ls head links ∧ (chain false head links).ByValue ∧
      worth ar (chain false head links) scale = .ok d ∧ d.Whole z := by
  obtain @⟨head, links, d, hchain, hvalue, hwhole, hread⟩ := h
  refine ⟨head, links, d, hchain, hvalue, ?_, hwhole⟩
  rw [worth]
  exact hread.takes.outcome_eq

/-- An operand by itself is a chain. -/
theorem denotes_operand {n : Nat} {ls : List Lexeme} {e : Expr} {d : Decimal} {z : Int}
    (hspelled : Grammar.Operand ctx n ls e) (hvalue : e.ByValue)
    (hworth : worth ar e scale = .ok d) (hd : d.Whole z) :
    Denotes ctx ar scale (Takes 3 operand) n ls z := by
  refine ⟨.single hspelled, ⟨hvalue, trivial⟩, hd, ?_⟩
  rw [hworth]
  exact takes_operand _

theorem byValue_signed {e : Expr} (h : e.ByValue) (negative : Bool) :
    (Grammar.signed negative e).ByValue := by
  cases negative with
  | false => exact h
  | true => exact ⟨trivial, h, trivial⟩

mutual

-- The induction is on the derivation.  Each rule adds one link to what its first premise has read,
-- and a phrase of the next higher tier has to be over before it is linked (`Leads.takes`).

/-- A number or a group is read, and comes to its integer. -/
theorem Operand.denotes (hbound : ctx.dialect.maxLiteralExponent ≤ Decimal.largestExponent) :
    ∀ {n : Nat} {ls : List Lexeme} {z : Int}, Operand ctx.dialect ar n ls z →
      NumbersFit ctx.dialect ls → Denotes ctx ar scale (Takes 3 operand) n ls z
  | _, _, _, @Operand.digits _ _ _ _ negative word hsigns hne hdigits, hfit => by
    have hliteral := Grammar.literal_of_isDigit hne hdigits (hfit word (by simp)) hbound
    refine denotes_operand (.number hsigns hliteral) trivial rfl ?_
    cases negative with
    | false => exact .ofNat _
    | true => exact (Decimal.Whole.ofNat _).negate
  | _, _, _, @Operand.group _ _ _ _ _ negative _ hsigns hsum, hfit => by
    have hdenotes : Denotes ctx ar scale _ _ _ _ := hsum.denotes hbound fun word hword ↦
      hfit word (by simp [hword])
    obtain ⟨head, links, d, hchain, hvalue, hworth, hd⟩ := hdenotes.worth_eq
    obtain ⟨d', hsigned, hd'⟩ := hd.signed negative
    have hworth' := (worth_signed negative _).trans (hworth ▸ hsigned)
    exact denotes_operand (.group hsigns hchain) (byValue_signed hvalue negative) hworth' hd'

theorem Power.denotes (hbound : ctx.dialect.maxLiteralExponent ≤ Decimal.largestExponent) :
    ∀ {n : Nat} {ls : List Lexeme} {z : Int}, Power ctx.dialect ar n ls z →
      NumbersFit ctx.dialect ls → Denotes ctx ar scale (Leads ar scale 2 operand) n ls z
  | _, _, _, .operand hoperand, hfit => (hoperand.denotes hbound hfit).mono Takes.leads
  | _, _, _, .power hpower hoperand hexponent hdigits, hfit =>
    (hpower.denotes hbound (numbersFit_append.1 hfit).1).link
      (hoperand.denotes hbound (numbersFit_append.1 hfit).2) .power rfl
      fun hd he ↦ hd.power he hexponent hdigits scale

theorem Product.denotes (hbound : ctx.dialect.maxLiteralExponent ≤ Decimal.largestExponent) :
    ∀ {n : Nat} {ls : List Lexeme} {z : Int}, Product ctx.dialect ar n ls z →
      NumbersFit ctx.dialect ls →
        Denotes ctx ar scale (Leads ar scale 1 (power ar scale)) n ls z
  | _, _, _, .power hpower, hfit =>
    (hpower.denotes hbound hfit).mono fun h ↦ h.takes.leads
  | _, _, _, .times hproduct hpower, hfit =>
    (hproduct.denotes hbound (numbersFit_append.1 hfit).1).link
      ((hpower.denotes hbound (numbersFit_append.1 hfit).2).mono Leads.takes) .times rfl
      fun hd he ↦ hd.mul he

/-- **An integer expression is read, and comes to its integer.** -/
theorem Sum.denotes (hbound : ctx.dialect.maxLiteralExponent ≤ Decimal.largestExponent) :
    ∀ {n : Nat} {ls : List Lexeme} {z : Int}, Sum ctx.dialect ar n ls z →
      NumbersFit ctx.dialect ls →
        Denotes ctx ar scale (Leads ar scale 0 (product ar scale)) n ls z
  | _, _, _, .product hproduct, hfit =>
    (hproduct.denotes hbound hfit).mono fun h ↦ h.takes.leads
  | _, _, _, .plus hsum hproduct, hfit =>
    (hsum.denotes hbound (numbersFit_append.1 hfit).1).link
      ((hproduct.denotes hbound (numbersFit_append.1 hfit).2).mono Leads.takes) .plus rfl
      fun hd he ↦ hd.add he
  | _, _, _, .minus hsum hproduct, hfit =>
    (hsum.denotes hbound (numbersFit_append.1 hfit).1).link
      ((hproduct.denotes hbound (numbersFit_append.1 hfit).2).mono Leads.takes) .minus rfl
      fun hd he ↦ hd.sub he

end

end Integer

end Formula
