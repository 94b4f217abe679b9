import Formula.Expr.Basic
import Formula.Text.LetterCase
import Formula.Value

/-!
# Declarations of functions

A `Declaration` is a function under the name with which it was registered.  Its arity is one, two or
three; it may have been given as a whole number, as the truth value *true*, which counts as one, or
as a floating-point number, and it is shown again in the form in which it was given.

* `isName` — the names that an expression can spell: an ASCII letter followed by ASCII letters and
  digits.
* `Declaration.key` — declarations are found without regard to letter case.
* `Declaration.bind?` — the call of a function with given arguments, as many as its arity.
* `Arity.isCounted` — a reader of expressions counts arguments in whole numbers, and an arity that
  was given as a floating-point number is none.
-/

set_option autoImplicit false

namespace Formula

/-! ## Arities -/

/-- How an arity was given. -/
inductive Arity.Form
  | whole
  | truth
  | floating
deriving DecidableEq

/-- The number of arguments of a function, and how it was given. -/
structure Arity where
  count : Nat
  form : Arity.Form
deriving DecidableEq

namespace Arity

/-- The arities as floating-point numbers. -/
def floatingForms : List (Binary64 × Nat) :=
  [(⟨0x3ff0000000000000⟩, 1), (⟨0x4000000000000000⟩, 2), (⟨0x4008000000000000⟩, 3)]

/-- The arity that a value gives, if it is one, two or three. -/
def ofValue? : Value → Option Arity
  | .integer n => if 1 ≤ n ∧ n ≤ 3 then some ⟨n.toNat, .whole⟩ else none
  | .bool true => some ⟨1, .truth⟩
  | .float x => (floatingForms.lookup x).map fun n ↦ ⟨n, .floating⟩
  | _ => none

/-- The arity in the form in which it was given. -/
def value (a : Arity) : Value :=
  match a.form with
  | .whole => .integer a.count
  | .truth => .bool true
  | .floating => .float (.ofDecimal (.finite false a.count 0))

/-- The arity as messages show it. -/
def shown (a : Arity) : String := a.value.shown

/-- Can the arity be counted to? -/
def isCounted (a : Arity) : Bool := a.form ≠ .floating

theorem count_of_ofValue? {v : Value} {a : Arity} (h : ofValue? v = some a) :
    1 ≤ a.count ∧ a.count ≤ 3 := by
  unfold ofValue? at h
  split at h
  · split at h
    · simp only [Option.some.injEq] at h
      subst h
      simp only
      omega
    · simp at h
  · simp only [Option.some.injEq] at h
    subst h
    decide
  · obtain ⟨n, hn, rfl⟩ := Option.map_eq_some_iff.1 h
    obtain ⟨before, after, hl, _⟩ := List.lookup_eq_some_iff.1 hn
    have hm : n ∈ floatingForms.map Prod.snd := by simp [hl]
    simp [floatingForms] at hm
    show 1 ≤ n ∧ n ≤ 3
    omega
  · simp at h

end Arity

/-! ## Declarations -/

/-- The names that functions can have. -/
def isName (s : String) : Bool :=
  match s.toList with
  | [] => false
  | c :: cs => c.isAlpha && cs.all Char.isAlphanum

/-- A function under the name with which it was registered. -/
structure Declaration where
  name : String
  arity : Arity
  procedure : Procedure

namespace Declaration

/-- The form of the name under which the declaration is found. -/
def key (d : Declaration) : List Char := Text.foldCase d.name

/-- The number of arguments of a call is not the arity of its function. -/
structure CountMismatch where
  declaration : Declaration
  given : Nat

/-- The wording of a mismatch. -/
def CountMismatch.message (e : CountMismatch) : String :=
  s!"{e.declaration.name} expects {e.declaration.arity.shown} arguments, got " ++
    Digits.natText e.given

/-- The call of the function with given arguments. -/
def call (d : Declaration) (arguments : List Expr) : Expr :=
  .call d.name d.procedure arguments

/-- The call of the function with given arguments, if they are as many as its arity. -/
def bind? (d : Declaration) (arguments : List Expr) : Except CountMismatch Expr :=
  if arguments.length = d.arity.count then .ok (d.call arguments)
  else .error ⟨d, arguments.length⟩

end Declaration

end Formula
