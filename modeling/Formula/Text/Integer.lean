import Formula.Digits
import Formula.Text.Blank
import Formula.Text.DecimalDigit
import Formula.Text.Quoted

/-!
# Whole numbers in settings and commands

The settings, the option for the scale and the command `scale` take a whole number as text.  Such a
text may have blanks at its ends, one sign, leading zeros and single underscores between digits,
and the digits may be those of any script.  The host may limit their number.

* `digitRun?` reads digits with single underscores between them, as far as they go.
* `readInt` reads the whole text, and says what is wrong with it if it is no number
  (`IntegerFault`).  The digits are counted before anything is said about what follows them.

The blanks that `readInt` skips are those of `isBlank` without the four separators among the
control characters (`isPadding`).
-/

set_option autoImplicit false

namespace Formula.Text

/-- The characters skipped at the ends of a whole number. -/
def isPadding (c : Char) : Bool :=
  isBlank c && !(0x1c ≤ c.toNat && c.toNat ≤ 0x1f)

/-- What follows a first digit: more digits, each of which may have one underscore before it, and
the text behind them.  An underscore must have a digit behind it. -/
def digitTail? : List Char → Option (List Nat × List Char)
  | [] => some ([], [])
  | '_' :: [] => none
  | '_' :: c :: rest => do
    let d ← digitValue? c
    return (← digitTail? rest).map (d :: ·) id
  | c :: rest =>
    match digitValue? c with
    | some d => do return (← digitTail? rest).map (d :: ·) id
    | none => some ([], c :: rest)

/-- The values of a run of digits with single underscores between them, and the text behind it. -/
def digitRun? : List Char → Option (List Nat × List Char)
  | [] => none
  | c :: rest => do
    let d ← digitValue? c
    return (← digitTail? rest).map (d :: ·) id

/-- The number that a list of decimal digits denotes, the most significant digit first. -/
def ofDigits (ds : List Nat) : Nat := ds.foldl (fun n d ↦ 10 * n + d) 0

/-- Why a text is no whole number. -/
inductive IntegerFault
  | malformed (text : List Char)
  /-- The text has more digits than the host allows. -/
  | tooManyDigits (limit given : Nat)

/-- The wording of a fault. -/
def IntegerFault.message : IntegerFault → String
  | malformed text => "invalid literal for int() with base 10: " ++ String.ofList (quoted text)
  | tooManyDigits limit given =>
    s!"Exceeds the limit ({Digits.natText limit} digits) for integer string conversion: value " ++
      s!"has {Digits.natText given} digits; use sys.set_int_max_str_digits() to increase the limit"

/-- The whole number that a text denotes, where numbers have at most `maxDigits` digits. -/
def readInt (maxDigits : Option Nat) (text : List Char) : Except IntegerFault Int :=
  let (negative, unsigned) := match trim isPadding text with
    | '-' :: rest => (true, rest)
    | '+' :: rest => (false, rest)
    | rest => (false, rest)
  match digitRun? unsigned with
  | none => .error (.malformed text)
  | some (ds, rest) =>
    match maxDigits.filter (· < ds.length) with
    | some limit => .error (.tooManyDigits limit ds.length)
    | none =>
      if rest.isEmpty then .ok (if negative then -(ofDigits ds : Int) else ofDigits ds)
      else .error (.malformed text)

/-- The whole number that a text denotes, if it denotes one. -/
def readInt? (maxDigits : Option Nat) (text : List Char) : Option Int :=
  (readInt maxDigits text).toOption

end Formula.Text
