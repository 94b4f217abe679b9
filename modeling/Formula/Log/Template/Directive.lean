import Formula.Digits

/-!
# Templates of messages

A message of the log can be given as a template and arguments to fill in.  A template is text with
directives, each of which begins with a percent sign and ends with the letter of a conversion; a
doubled percent sign stands for itself.

* `Directive` — what stands between: the key of an argument in parentheses, flags, a width, a
  precision after a point, and a letter for the size of the argument, which has no meaning.  All of
  it may be missing.  Width and precision may be left to an argument.
* `Directive.read` — the directive at the beginning of a text.
* `pieces` — a template as a list of characters and directives.
-/

set_option autoImplicit false

namespace Formula.Log.Template

/-- A width or a precision. -/
inductive Extent
  | number (n : Nat)
  /-- The next argument gives it. -/
  | argument
deriving DecidableEq

/-- The key of an argument. -/
inductive Key
  | missing
  | name (s : String)
  /-- The parenthesis is not closed. -/
  | unclosed
deriving DecidableEq

/-- A directive. -/
structure Directive where
  key : Key
  flags : List Char
  width : Option Extent
  precision : Option Extent
  /-- The letter of the conversion, and its position in the template. -/
  conversion : Option (Char × Nat)
deriving DecidableEq

namespace Directive

/-- The text up to the parenthesis that closes `depth` others, and what follows it. -/
def closing (depth : Nat) (cs : List Char) : Option (List Char × List Char) :=
  match cs with
  | [] => none
  | ')' :: rest =>
    match depth with
    | 0 => some ([], rest)
    | depth + 1 => (closing depth rest).map fun (inner, rest) ↦ (')' :: inner, rest)
  | c :: rest =>
    (closing (if c = '(' then depth + 1 else depth) rest).map fun (inner, rest) ↦
      (c :: inner, rest)

/-- The key at the beginning of a text.  Without its closing parenthesis it takes up all of it. -/
def readKey (cs : List Char) : Key × List Char :=
  match cs with
  | '(' :: rest =>
    match closing 0 rest with
    | some (inner, rest) => (.name (String.ofList inner), rest)
    | none => (.unclosed, [])
  | _ => (.missing, cs)

def isFlag (c : Char) : Bool := c = '-' || c = '+' || c = ' ' || c = '#' || c = '0'

/-- The width or the precision at the beginning of a text. -/
def readExtent (cs : List Char) : Option Extent × List Char :=
  match cs with
  | '*' :: rest => (some .argument, rest)
  | _ =>
    let ds := cs.takeWhile Char.isDigit
    (if ds.isEmpty then none else some (.number (Digits.value ds)), cs.dropWhile Char.isDigit)

/-- The precision at the beginning of a text.  A point alone stands for the precision zero. -/
def readPrecision (cs : List Char) : Option Extent × List Char :=
  match cs with
  | '.' :: rest =>
    let (extent, rest) := readExtent rest
    (some (extent.getD (.number 0)), rest)
  | _ => (none, cs)

/-- What follows a letter for the size of an argument. -/
def skipSize (cs : List Char) : List Char :=
  match cs with
  | c :: rest => if c = 'h' || c = 'l' || c = 'L' then rest else cs
  | [] => []

/-- The directive behind a percent sign, and what follows it.  `length` is the length of the whole
template, by which the position of the conversion is known. -/
def read (length : Nat) (cs : List Char) : Directive × List Char :=
  let keyed := readKey cs
  let sized := readExtent (keyed.2.dropWhile isFlag)
  let limited := readPrecision sized.2
  let directive (conversion : Option (Char × Nat)) : Directive :=
    ⟨keyed.1, keyed.2.takeWhile isFlag, sized.1, limited.1, conversion⟩
  match skipSize limited.2 with
  | [] => (directive none, [])
  | c :: rest => (directive (some (c, length - rest.length - 1)), rest)

/-! ### Nothing is read twice -/

theorem length_closing {depth : Nat} {cs : List Char} {r : List Char × List Char}
    (h : closing depth cs = some r) : r.2.length ≤ cs.length := by
  induction cs generalizing depth r with
  | nil => simp [closing] at h
  | cons c cs ih =>
    have step {d : Nat} {f : List Char × List Char → List Char × List Char}
        (hf : ∀ q, (f q).2 = q.2) (h : (closing d cs).map f = some r) :
        r.2.length ≤ (c :: cs).length := by
      obtain ⟨q, hq, rfl⟩ := Option.map_eq_some_iff.1 h
      have := ih hq
      simp [hf]
      omega
    unfold closing at h
    split at h
    · contradiction
    · rename_i heq
      split at h
      · simp only [Option.some.injEq] at h
        subst h
        simp_all
      · cases heq
        exact step (by simp) h
    · rename_i heq
      cases heq
      exact step (by simp) h

theorem length_readKey (cs : List Char) : (readKey cs).2.length ≤ cs.length := by
  unfold readKey
  split
  · split
    · rename_i h
      exact Nat.le_succ_of_le (length_closing h)
    · simp
  · exact Nat.le_refl _

theorem length_dropWhile_le (p : Char → Bool) (cs : List Char) :
    (cs.dropWhile p).length ≤ cs.length :=
  (List.dropWhile_suffix p).length_le

theorem length_readExtent (cs : List Char) : (readExtent cs).2.length ≤ cs.length := by
  unfold readExtent
  split
  · simp
  · exact length_dropWhile_le _ _

theorem length_readPrecision (cs : List Char) : (readPrecision cs).2.length ≤ cs.length := by
  unfold readPrecision
  split
  · rename_i rest
    have := length_readExtent rest
    simp only [List.length_cons]
    omega
  · exact Nat.le_refl _

theorem length_skipSize (cs : List Char) : (skipSize cs).length ≤ cs.length := by
  unfold skipSize
  split
  · split <;> simp
  · exact Nat.le_refl _

/-- The text behind a directive is no longer than the text that begins with it. -/
theorem length_read (length : Nat) (cs : List Char) : (read length cs).2.length ≤ cs.length := by
  have h1 := length_readKey cs
  have h2 := length_dropWhile_le isFlag (readKey cs).2
  have h3 := length_readExtent ((readKey cs).2.dropWhile isFlag)
  have h4 := length_readPrecision (readExtent ((readKey cs).2.dropWhile isFlag)).2
  have h5 := length_skipSize
    (readPrecision (readExtent ((readKey cs).2.dropWhile isFlag)).2).2
  simp only [read]
  split
  · simp
  · rename_i h
    rw [h, List.length_cons] at h5
    simp only
    omega

end Directive

/-! ## Pieces -/

/-- A part of a template. -/
inductive Piece
  | literal (c : Char)
  | directive (d : Directive)
deriving DecidableEq

/-- The parts of a text that is the end of a template of a given length. -/
def piecesFrom (length : Nat) (cs : List Char) : List Piece :=
  match cs with
  | [] => []
  | '%' :: '%' :: rest => .literal '%' :: piecesFrom length rest
  | '%' :: rest =>
    have := Directive.length_read length rest
    .directive (Directive.read length rest).1 :: piecesFrom length (Directive.read length rest).2
  | c :: rest => .literal c :: piecesFrom length rest
termination_by cs.length
decreasing_by
  · simp only [List.length_cons]
    omega
  · simp only [List.length_cons]
    omega
  · simp only [List.length_cons]
    omega

/-- The parts of a template. -/
def pieces (template : List Char) : List Piece := piecesFrom template.length template

end Formula.Log.Template
