/-!
# Blank characters

A text that the user leaves empty is not an error, and neither is one that only looks empty.
`isBlank` says which characters look like nothing: the space and the control characters that move
the cursor, the separators among the control characters, and the spaces and line separators of
Unicode.  It is a wider set than the one that separates tokens (`Token.isGap`), which knows the
control characters and the space only; a no-break space alone is an empty input, and between two
numbers it is a stray symbol.

* `strip` takes the blanks off both ends of a text.
* `strip_eq_nil_iff` — a text is blank exactly when nothing is left of it.
-/

set_option autoImplicit false

namespace Formula.Text

/-- The characters that count as blank at the ends of a text. -/
def isBlank (c : Char) : Bool :=
  let n := c.toNat
  (0x09 ≤ n && n ≤ 0x0d) || (0x1c ≤ n && n ≤ 0x20) || n == 0x85 || n == 0xa0 || n == 0x1680 ||
    (0x2000 ≤ n && n ≤ 0x200a) || n == 0x2028 || n == 0x2029 || n == 0x202f || n == 0x205f ||
    n == 0x3000

/-- The text without the characters at its two ends that satisfy `p`. -/
def trim (p : Char → Bool) (cs : List Char) : List Char :=
  ((cs.dropWhile p).reverse.dropWhile p).reverse

/-- The text without the blanks at its two ends. -/
def strip (cs : List Char) : List Char := trim isBlank cs

/-- `strip` for strings. -/
def stripped (s : String) : String := String.ofList (strip s.toList)

theorem dropWhile_eq_nil_iff {p : Char → Bool} {cs : List Char} :
    cs.dropWhile p = [] ↔ ∀ c ∈ cs, p c = true := by
  induction cs with
  | nil => simp
  | cons c cs ih => by_cases hc : p c = true <;> simp [hc, ih]

theorem trim_eq_nil_iff {p : Char → Bool} {cs : List Char} :
    trim p cs = [] ↔ ∀ c ∈ cs, p c = true := by
  simp only [trim, List.reverse_eq_nil_iff, dropWhile_eq_nil_iff, List.mem_reverse]
  refine ⟨fun h ↦ ?_, fun h c hc ↦ h c (List.dropWhile_subset p hc)⟩
  cases hd : cs.dropWhile p with
  | nil => exact dropWhile_eq_nil_iff.1 hd
  | cons d ds =>
    have hp := List.head?_dropWhile_not p cs
    rw [hd] at hp h
    simp [h d List.mem_cons_self] at hp

/-- Nothing is taken off a text if there is nothing to take off at its ends. -/
theorem trim_eq_self {p : Char → Bool} {cs : List Char} (hhead : ∀ c ∈ cs.head?, p c = false)
    (hlast : ∀ c ∈ cs.getLast?, p c = false) : Text.trim p cs = cs := by
  have hkeep : ∀ {ds : List Char}, (∀ c ∈ ds.head?, p c = false) → ds.dropWhile p = ds := by
    intro ds h
    cases ds with
    | nil => rfl
    | cons c ds => exact List.dropWhile_cons_of_neg (by simp [h c rfl])
  rw [Text.trim, hkeep hhead, hkeep (by rwa [List.head?_reverse]), List.reverse_reverse]

/-- A text is blank exactly when nothing is left of it. -/
theorem strip_eq_nil_iff {cs : List Char} : strip cs = [] ↔ ∀ c ∈ cs, isBlank c = true :=
  trim_eq_nil_iff

end Formula.Text
