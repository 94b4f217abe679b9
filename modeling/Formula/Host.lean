import Formula.Elementary
import Formula.Expr.Group

/-!
# Hosts

The calculator runs on a host, and some of what it does is a matter of what the host allows.

* The elementary functions are those of the host's machine.
* Reading, grouping and showing an expression go down into it by calls within calls, and the stack
  of the host may have no room for all of them.  The limits of the calculator do not prevent this:
  they count levels of parentheses, and a level of an expression can be worth many calls.
* A whole number that is given as a text may have a limited number of digits.

A `Host` is what is known of a host, and everything that depends on it takes it as an argument, so
that it holds of every host.  All that a host has to have room for is a number alone.

`Host.framed` is a host that counts the calls in progress and allows a fixed number of them, and
`Host.native` is the one that the program runs on.
-/

set_option autoImplicit false

namespace Formula

/-- What a reader is inside of. -/
inductive Bracket
  | group
  | call
deriving DecidableEq

/-- The error of a stack without room: the name of its class, and its message. -/
structure Exhaustion where
  kind : String
  message : String
deriving DecidableEq

/-- A host. -/
structure Host where
  elementary : Elementary
  /-- Is there room to read inside of some groups and calls, innermost first? -/
  canFollow : List Bracket → Bool
  /-- The error if there is no room to group an expression by tiers, or to show the result in the
  log where the log asks for it. -/
  groupingFault? : Expr → Option Exhaustion
  /-- The error if there is no room to show an expression. -/
  renderingFault? : Expr → Option Exhaustion
  /-- The number of digits that a whole number may have as a text, if there is a limit. -/
  maxDigits : Option Nat
  canFollow_nil : canFollow [] = true
  groupingFault?_number (d : Decimal) : groupingFault? (.chain false (.const d) []) = none
  renderingFault?_number (d : Decimal) : renderingFault? (.chain false (.const d) []) = none

/-! ## Counting calls -/

/-- The number of calls in progress for a group or a call that is read. -/
def Bracket.frames : Bracket → Nat
  | group => 1
  | call => 3

/-- The number of calls in progress inside of some groups and calls. -/
def Bracket.framesOf : List Bracket → Nat
  | [] => 0
  | b :: rest => b.frames + framesOf rest

/-- The numbers of calls by which a recursion gets from an expression to a part of it. -/
structure Steps where
  head : Nat
  operand : Nat
  argument : Nat

/-- Grouping by tiers, which goes down into the parts of the grouped expression. -/
def Steps.grouping : Steps := ⟨1, 2, 1⟩

/-- Showing an expression as a text. -/
def Steps.rendering : Steps := ⟨2, 3, 4⟩

namespace Expr

mutual

/-- The number of calls in progress when a recursion is at the deepest place of an expression. -/
def frames (steps : Steps) : Expr → Nat
  | const _ => 0
  | chain _ head links => max (steps.head + frames steps head) (framesOfLinks steps links)
  | call _ _ arguments => framesOfArguments steps arguments

def framesOfLinks (steps : Steps) : List (Operator × Expr) → Nat
  | [] => 0
  | (_, e) :: rest => max (steps.operand + frames steps e) (framesOfLinks steps rest)

def framesOfArguments (steps : Steps) : List Expr → Nat
  | [] => 0
  | e :: rest => max (steps.argument + frames steps e) (framesOfArguments steps rest)

end

end Expr

namespace Host

/-- What a counting host raises. -/
def tooDeep : Exhaustion := ⟨"RecursionError", "maximum recursion depth exceeded"⟩

/-- A host that allows some calls in progress, besides those that a number takes. -/
def framed (elementary : Elementary) (spare : Nat) (maxDigits : Option Nat) : Host :=
  let fault? (steps : Steps) (e : Expr) : Option Exhaustion :=
    if e.frames steps ≤ steps.head + spare then none else some tooDeep
  { elementary := elementary
    canFollow := fun brackets ↦ Bracket.framesOf brackets ≤ spare
    groupingFault? := fun e ↦ fault? .grouping e.group
    renderingFault? := fault? .rendering
    maxDigits := maxDigits
    canFollow_nil := decide_eq_true (Nat.zero_le _)
    groupingFault?_number := fun _ ↦ if_pos (Nat.le_add_right _ _)
    renderingFault?_number := fun _ ↦ if_pos (Nat.le_add_right _ _) }

/-- The host that the program runs on.  How many calls it allows is a convention; they are
enough for every text within the standard limits. -/
def native : Host := .framed .native 8000 (some 4300)

/-! ## Room for reading -/

variable {h : Host}

/-- There is room to read inside of any `n` groups and calls. -/
def Follows (h : Host) (n : Nat) : Prop :=
  ∀ brackets : List Bracket, brackets.length ≤ n → h.canFollow brackets

theorem follows_zero : h.Follows 0 := by
  intro brackets hlength
  obtain rfl := List.eq_nil_of_length_eq_zero (Nat.le_zero.1 hlength)
  exact h.canFollow_nil

theorem framesOf_le (brackets : List Bracket) :
    Bracket.framesOf brackets ≤ 3 * brackets.length := by
  induction brackets with
  | nil => exact Nat.le_refl 0
  | cons b brackets ih =>
    rw [Bracket.framesOf, List.length_cons]
    cases b <;> simp only [Bracket.frames] <;> omega

/-- Three calls for each level are enough. -/
theorem follows_framed {elementary : Elementary} {spare n : Nat} {maxDigits : Option Nat}
    (hn : 3 * n ≤ spare) : (framed elementary spare maxDigits).Follows n := by
  intro brackets hlength
  have hframes := framesOf_le brackets
  exact decide_eq_true (by omega)

end Host

end Formula
