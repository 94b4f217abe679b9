import Formula.Binary64.Places
import Formula.Log.Template.Directive
import Formula.Value

/-!
# Filling in a template

`Template.fill` puts arguments into a template.  Each directive takes the next argument, and another
one for a width or a precision that it leaves to an argument.  All arguments have to be used.

A dictionary that is the only argument is both an argument and a store of further ones: a directive
with a key takes the argument that is stored under it, and none has to be used.

* `Source` — the arguments that are still there.
* `convert` — an argument as the letter of a directive asks for it.
* `laid` and `numeral` — the text in its width.  A number has its sign and the mark of its base in
  front, and the flag `0` fills it up with zeros between these and the digits.
-/

set_option autoImplicit false

-- Powers are those of the core library.
attribute [local instance (high)] instPowNat

namespace Formula.Log.Template

/-! ## Faults -/

/-- Why a template cannot be filled in. -/
inductive Fault
  /-- An argument is missing, left over or of the wrong type. -/
  | unsuitable
  | missingKey (name : String)
  | incomplete
  | incompleteKey
  | wideWidth
  | widePrecision
  /-- No memory holds a text of this width. -/
  | exhausted
  | unsupported (conversion : Char) (position : Nat)
  /-- A value that is not a number has no whole part. -/
  | wholeOfNaN
  | wholeOfInfinity
  /-- A whole number is beyond the largest floating-point number. -/
  | beyondBinary64
  /-- A whole number is not the code point of a character. -/
  | noCharacter
deriving DecidableEq

namespace Fault

/-- The wording of a fault. -/
def message : Fault → String
  | unsuitable => "not all arguments converted during string formatting"
  | missingKey name => Text.quotedString name
  | incomplete => "incomplete format"
  | incompleteKey => "incomplete format key"
  | wideWidth => "width too big"
  | widePrecision => "precision too big"
  | exhausted => "out of memory"
  | unsupported c position =>
    let shown := if 31 ≤ c.toNat && c.toNat < 127 then c else '?'
    let code := String.ofList (Nat.toDigits 16 c.toNat)
    s!"unsupported format character '{shown}' (0x{code}) at index {Digits.natText position}"
  | wholeOfNaN => "cannot convert float NaN to integer"
  | wholeOfInfinity => "cannot convert float infinity to integer"
  | beyondBinary64 => "int too large to convert to float"
  | noCharacter => "%c arg not in range(0x110000)"

end Fault

/-! ## Arguments -/

/-- The arguments that are still there. -/
structure Source where
  pending : List Value
  /-- The arguments that are stored under keys, if there is a store. -/
  stored : Option (List (String × Value))

namespace Source

/-- The arguments as they are given. -/
def ofArguments (vs : List Value) : Source :=
  match vs with
  | [.dict (e :: es)] => ⟨vs, some (e :: es)⟩
  | _ => ⟨vs, none⟩

/-- The next argument. -/
def next (s : Source) : Except Fault (Value × Source) :=
  match s.pending with
  | [] => .error .unsuitable
  | v :: rest => .ok (v, { s with pending := rest })

/-- The arguments for a directive with a given key. -/
def select (s : Source) (key : Key) : Except Fault Source :=
  match key, s.stored with
  | .missing, _ => .ok s
  | _, none => .error .unsuitable
  | .unclosed, some _ => .error .incompleteKey
  | .name k, some entries =>
    match entries.lookup k with
    | some v => .ok { s with pending := [v] }
    | none => .error (.missingKey k)

/-- A width or a precision, at most `limit`. -/
def extent (s : Source) (limit : Nat) (excess : Fault) :
    Option Extent → Except Fault (Option Int × Source)
  | none => .ok (none, s)
  | some (.number n) => if n ≤ limit then .ok (some n, s) else .error excess
  | some .argument => do
    let (v, s) ← s.next
    match v with
    | .integer n => if n.natAbs ≤ limit then .ok (some n, s) else .error excess
    | .bool b => .ok (some (if b then 1 else 0), s)
    | _ => .error .unsuitable

end Source

/-! ## Layout -/

/-- A directive whose width and precision are known. -/
structure Style where
  flags : List Char
  width : Nat
  leftAligned : Bool
  precision : Option Nat

namespace Style

def has (st : Style) (flag : Char) : Bool := st.flags.contains flag

/-- A text in its width, between blanks. -/
def laid (st : Style) (cs : List Char) : List Char :=
  let blanks := List.replicate (st.width - cs.length) ' '
  if st.leftAligned then cs ++ blanks else blanks ++ cs

/-- A number in its width. -/
def numeral (st : Style) (negative : Bool) (mark digits : List Char) : List Char :=
  let sign :=
    if negative then ['-'] else if st.has '+' then ['+'] else if st.has ' ' then [' '] else []
  let zeros :=
    if st.has '0' && !st.leftAligned then
      List.replicate (st.width - (sign.length + mark.length + digits.length)) '0'
    else []
  st.laid (sign ++ mark ++ zeros ++ digits)

/-- A text in its width, cut off by the precision. -/
def words (st : Style) (cs : List Char) : List Char :=
  st.laid (match st.precision with
    | some n => cs.take n
    | none => cs)

/-- A whole number; the precision is the least number of its digits. -/
def whole (st : Style) (mark : List Char) (base : Nat) (n : Int) : List Char :=
  let ds := if base = 10 then Digits.ofNat n.natAbs else Nat.toDigits base n.natAbs
  let zeros := List.replicate (st.precision.getD 0 - ds.length) '0'
  st.numeral (n < 0) (if st.has '#' then mark else []) (zeros ++ ds)

/-- A floating-point number, in a notation that is given how many places to show. -/
def fraction (st : Style) (form : Bool → Nat → Binary64 → List Char) (x : Binary64) :
    List Char :=
  let body :=
    if x.isNaN then "nan".toList
    else if x.isInfinite then "inf".toList
    else form (st.has '#') (st.precision.getD 6) x
  st.numeral (x.isNegative && !x.isNaN) [] body

end Style

/-! ## Conversions -/

/-- A whole number that is given as one. -/
def integer? : Value → Option Int
  | .integer n => some n
  | .bool b => some (if b then 1 else 0)
  | _ => none

/-- The whole part of a floating-point number. -/
def wholePart (x : Binary64) : Except Fault Int :=
  if x.isNaN then .error .wholeOfNaN
  else if x.isInfinite then .error .wholeOfInfinity
  else match x.toDecimal with
    | .finite s c e => .ok (Decimal.signed s (c * 10 ^ e.toNat / 10 ^ (-e).toNat))
    | _ => .error .wholeOfNaN

/-- The whole number that an argument stands for. -/
def wholeOf (v : Value) : Except Fault Int :=
  match v with
  | .float x => wholePart x
  | _ => match integer? v with
    | some n => .ok n
    | none => .error .unsuitable

/-- The whole number that an argument is. -/
def integerOf (v : Value) : Except Fault Int :=
  match integer? v with
  | some n => .ok n
  | none => .error .unsuitable

/-- The floating-point number that an argument stands for. -/
def binary64Of (v : Value) : Except Fault Binary64 :=
  match v with
  | .float x => .ok x
  | _ => match integer? v with
    | some n =>
      let x := Binary64.ofDecimal (.ofInt n)
      if x.isInfinite then .error .beyondBinary64 else .ok x
    | none => .error .unsuitable

/-- The character that an argument stands for. -/
def characterOf (v : Value) : Except Fault Char :=
  match v with
  | .text s =>
    match s.toList with
    | [c] => .ok c
    | _ => .error .unsuitable
  | _ => match integer? v with
    | some n =>
      if 0 ≤ n ∧ n < 0x110000 then .ok (Char.ofNat n.toNat) else .error .noCharacter
    | none => .error .unsuitable

/-- An argument as plain text. -/
def plainText : Value → List Char
  | .text s => s.toList
  | v => v.chars

/-- An argument as messages show it, in ASCII. -/
def asciiText (v : Value) : List Char :=
  v.chars.flatMap fun c ↦ if c.toNat < 0x80 then [c] else Text.byCodePoint c

/-- An argument as the letter of a directive asks for it. -/
def convert (st : Style) (letter : Char) (position : Nat) (v : Value) :
    Except Fault (List Char) :=
  let upper (cs : List Char) : List Char := cs.map Char.toUpper
  match letter with
  | 's' => .ok (st.words (plainText v))
  | 'r' => .ok (st.words v.chars)
  | 'a' => .ok (st.words (asciiText v))
  | 'c' => do return st.laid [← characterOf v]
  | 'd' | 'i' | 'u' => do return st.whole [] 10 (← wholeOf v)
  | 'o' => do return st.whole ['0', 'o'] 8 (← integerOf v)
  | 'x' => do return st.whole ['0', 'x'] 16 (← integerOf v)
  | 'X' => do return upper (st.whole ['0', 'x'] 16 (← integerOf v))
  | 'e' => do return st.fraction Binary64.scientific (← binary64Of v)
  | 'f' => do return st.fraction Binary64.positional (← binary64Of v)
  | 'g' => do return st.fraction Binary64.general (← binary64Of v)
  | 'E' => do return upper (st.fraction Binary64.scientific (← binary64Of v))
  | 'F' => do return upper (st.fraction Binary64.positional (← binary64Of v))
  | 'G' => do return upper (st.fraction Binary64.general (← binary64Of v))
  | _ => .error (.unsupported letter position)

/-! ## Filling in -/

/-- A directive filled in, and the arguments that are left. -/
def fillDirective (s : Source) (d : Directive) : Except Fault (List Char × Source) := do
  let s ← s.select d.key
  let (width, s) ← s.extent 0x7fffffffffffffff .wideWidth d.width
  let (precision, s) ← s.extent 0x7fffffff .widePrecision d.precision
  match d.conversion with
  | none => throw .incomplete
  | some (letter, position) =>
    let (v, s) ← s.next
    let w := width.getD 0
    let style : Style := {
      flags := d.flags
      width := 0
      leftAligned := d.flags.contains '-' || w < 0
      precision := precision.map Int.toNat }
    if w.natAbs ≤ 0x400000000 then
      return (← convert { style with width := w.natAbs } letter position v, s)
    else
      let _ ← convert style letter position v
      throw .exhausted

/-- The parts of a template filled in, one after the other. -/
def fillPieces (s : Source) : List Piece → Except Fault (List Char)
  | [] => if s.stored.isNone && !s.pending.isEmpty then .error .unsuitable else .ok []
  | .literal c :: rest => do return c :: (← fillPieces s rest)
  | .directive d :: rest => do
    let (text, s) ← fillDirective s d
    return text ++ (← fillPieces s rest)

/-- The message that a template makes of its arguments.  Without arguments it is the template
itself, percent signs included. -/
def fill (template : String) (arguments : List Value) : Except Fault String :=
  if arguments.isEmpty then .ok template
  else (fillPieces (.ofArguments arguments) (pieces template.toList)).map String.ofList

end Formula.Log.Template
