import Formula.Proofs.Grammar
import Formula.Proofs.Precedence

/-!
# Phrases that grow

A phrase is read from its left end, and the grammar derives it by adding links at its right end.
`Leads` says of a list of steps that reading them and going on is the same as going on with their
outcome; it holds of one operand, and every link keeps it (`Leads.link`).  Once a looser operator
follows, the phrase is over (`Leads.takes`).

Two consequences are about what the grammar adds around an operand.

* `worth_single` — a pair of parentheses around a single operand is worth what the operand is.
* `worth_signed` — a minus sign in front of a group or a call changes the sign of what it is worth,
  and nothing else.
-/

set_option autoImplicit false

namespace Formula

namespace Expr

variable (ar : Arithmetic) (scale : Int)

/-- The reader takes exactly these steps, as long as what follows binds less tightly than
`bound`. -/
def Takes (bound : Nat) (part : Phrase.Reader) (x : Outcome) (ss : List Step) (out : Outcome) :
    Prop :=
  ∀ stop : List Step, (∀ s ∈ stop.head?, s.1.tier < bound) →
    (part x (ss ++ stop)).outcome = out ∧ (part x (ss ++ stop)).rest = stop

/-- Reading these steps and what follows is folding what follows onto their outcome. -/
def Leads (tier : Nat) (part : Phrase.Reader) (x : Outcome) (ss : List Step) (out : Outcome) :
    Prop :=
  ∀ stop : List Step, (∀ s ∈ stop.head?, s.1.tier < tier + 1) →
    (phrase ar scale tier part x (ss ++ stop)).outcome =
        (fold ar scale tier part out stop).outcome ∧
      (phrase ar scale tier part x (ss ++ stop)).rest = (fold ar scale tier part out stop).rest

variable {ar scale} {tier bound : Nat} {part : Phrase.Reader} {x y out out' : Outcome}
  {ss ts : List Step}

theorem takes_operand (x : Outcome) : Takes 3 operand x [] x := fun _ _ ↦ ⟨rfl, rfl⟩

theorem Takes.outcome_eq (h : Takes bound part x ss out) : (part x ss).outcome = out := by
  have hall := (h [] (by simp)).1
  rwa [List.append_nil] at hall

theorem Takes.leads (h : Takes (tier + 1) part x ss out) : Leads ar scale tier part x ss out := by
  intro stop hstop
  obtain ⟨hout, hrest⟩ := h stop hstop
  simp only [phrase]
  rw [hout, hrest]
  exact ⟨rfl, rfl⟩

/-- One link more. -/
theorem Leads.link (h : Leads ar scale tier part x ss out) {op : Operator} (hop : op.tier = tier)
    (h' : Takes (tier + 1) part y ts out') :
    Leads ar scale tier part x (ss ++ (op, y) :: ts) (combine ar scale op out out') := by
  intro stop hstop
  have hnext : ∀ s ∈ ((op, y) :: (ts ++ stop)).head?, s.1.tier < tier + 1 := by
    rintro _ ⟨rfl⟩
    exact Nat.lt_succ_of_le (Nat.le_of_eq hop)
  obtain ⟨hout, hrest⟩ := h _ hnext
  obtain ⟨hout', hrest'⟩ := h' stop hstop
  rw [List.append_assoc, List.cons_append, hout, hrest, fold, if_pos hop]
  dsimp only
  rw [hout', hrest']
  exact ⟨rfl, rfl⟩

/-- The phrase is over when a looser operator follows. -/
theorem Leads.takes (h : Leads ar scale tier part x ss out) :
    Takes tier (phrase ar scale tier part) x ss out := by
  intro stop hstop
  obtain ⟨hout, hrest⟩ := h stop fun s hs ↦ Nat.lt_succ_of_lt (hstop s hs)
  obtain ⟨hout', hrest'⟩ := fold_of_lower ar scale part out hstop
  exact ⟨hout.trans hout', hrest.trans hrest'⟩

/-- A single operand is a power. -/
theorem takes_power (x : Outcome) : Takes 2 (power ar scale) x [] x :=
  (takes_operand x).leads.takes

theorem worthLinks_append (links links' : List Link) : worthLinks ar (links ++ links') scale =
    worthLinks ar links scale ++ worthLinks ar links' scale := by
  induction links with
  | nil => rfl
  | cons l links ih =>
    obtain ⟨op, e⟩ := l
    rw [List.cons_append, worthLinks, worthLinks, ih, List.cons_append]

theorem LinksByValue.append {links links' : List Link} (h : LinksByValue links)
    (h' : LinksByValue links') : LinksByValue (links ++ links') := by
  induction links with
  | nil => exact h'
  | cons l links ih =>
    obtain ⟨op, e⟩ := l
    exact ⟨h.1, ih h.2⟩

/-! ## Around an operand -/

/-- **A chain of a single operand is worth what the operand is.** -/
theorem worth_single (introduced : Bool) (e : Expr) :
    worth ar (chain introduced e []) scale = worth ar e scale := by
  have hsum : Takes 0 (sum ar scale) _ [] _ :=
    (takes_power (worth ar e scale)).leads.takes.leads.takes
  exact hsum.outcome_eq

/-- An outcome with a sign in front of it. -/
def Outcome.signed (negative : Bool) (x : Outcome) : Outcome :=
  if negative then x.map Decimal.negate else x

theorem mul_minusOne (d : Decimal) : (Decimal.finite true 1 0).mul d = .ok d.negate := by
  cases d <;> simp [Decimal.mul, Decimal.negate]

/-- **A minus sign in front of a group or a call changes the sign of what it is worth**, of a zero
and of an infinity as well. -/
theorem worth_signed (negative : Bool) (e : Expr) :
    worth ar (Grammar.signed negative e) scale = Outcome.signed negative (worth ar e scale) := by
  cases negative with
  | false => rfl
  | true =>
    have hproduct : Leads ar scale 1 (power ar scale) (.ok (.finite true 1 0))
        [(.times, worth ar e scale)]
        (combine ar scale .times (.ok (.finite true 1 0)) (worth ar e scale)) :=
      (takes_power _).leads.link rfl (takes_power _)
    have hsum : Takes 0 (sum ar scale) _ _ _ := hproduct.takes.leads.takes
    rw [Grammar.signed, if_pos rfl, worth, worthLinks, worthLinks]
    refine hsum.outcome_eq.trans ?_
    cases worth ar e scale with
    | error f => rfl
    | ok d => exact mul_minusOne d

end Expr

end Formula
