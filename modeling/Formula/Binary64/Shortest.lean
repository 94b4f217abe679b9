import Formula.Binary64.Nearest

/-!
# The shortest text of a floating-point number

A message that shows a floating-point number shows the fewest digits from which the number can be
read back, and of those the nearest to its exact value.

* `candidates` — the two neighbours of a value on the grid of decimals with a given exponent.
* `shortest?` — the coefficient and the exponent of the shortest decimal that reads back.  Seventeen
  digits are always enough.
* `text` — its notation.  Numbers from `10 ^ (-4)` up to `10 ^ 16` are written positionally, with
  at least one digit after the point; the others have an exponent of at least two digits, always
  with its sign.
-/

set_option autoImplicit false

-- Powers are those of the core library.
attribute [local instance (high)] instPowNat

namespace Formula.Binary64

/-- The two multiples of `10 ^ e` between which the positive number `n / d` lies, as coefficients,
the nearer one first. -/
def candidates (n d : Nat) (e : Int) : List Nat :=
  let n' := n * 10 ^ (-e).toNat
  let d' := d * 10 ^ e.toNat
  let low := n' / d'
  if 2 * (n' % d') ≤ d' then [low, low + 1] else [low + 1, low]

/-- The exact value of a finite number without its sign, as a quotient. -/
def ratio (x : Binary64) : Nat × Nat := scaleRatio x.significand 1 x.shift

/-- The exponent of the leading decimal digit of `n / d`, by the number of their digits. -/
def leadingExponent (n d : Nat) : Int :=
  let k : Int := (Digits.count n : Int) - Digits.count d
  if d * 10 ^ k.toNat ≤ n * 10 ^ (-k).toNat then k else k - 1

/-- The shortest decimal that reads back as a finite number other than zero, its sign apart. -/
def shortest? (x : Binary64) : Option (Nat × Int) :=
  let (n, d) := x.ratio
  let lead := leadingExponent n d
  let magnitude := x.pattern % 0x8000000000000000
  (List.range 17).findSome? fun (k : Nat) ↦
    let e := lead - (k : Int)
    (candidates n d e).findSome? fun c ↦
      if (ofDecimal (.finite false c e)).pattern = magnitude then some (c, e) else none

/-- The digits with a point after the first `n`; an empty side of the point gets a zero. -/
def withPoint (ds : List Char) (n : Nat) : List Char :=
  let whole := ds.take n
  let fraction := ds.drop n
  (if whole = [] then ['0'] else whole) ++ '.' :: (if fraction = [] then ['0'] else fraction)

/-- The exponent of a number in scientific notation. -/
def exponentText (e : Int) : List Char :=
  let ds := Digits.ofNat e.natAbs
  'e' :: (if e < 0 then '-' else '+') :: (if ds.length < 2 then '0' :: ds else ds)

/-- The notation of the digits `ds`, the first of which has the exponent `lead`. -/
def layout (ds : List Char) (lead : Int) : List Char :=
  if 0 ≤ lead ∧ lead < 16 then
    withPoint (ds ++ List.replicate (lead + 1 - ds.length).toNat '0') (lead + 1).toNat
  else if -4 ≤ lead ∧ lead < 0 then
    withPoint (List.replicate (-lead - 1).toNat '0' ++ ds) 0
  else match ds with
    | [] => []
    | [c] => c :: exponentText lead
    | c :: cs => c :: '.' :: cs ++ exponentText lead

/-- The digits of a coefficient without trailing zeros. -/
def trimmedDigits (c : Nat) : List Char :=
  ((Digits.ofNat c).reverse.dropWhile (· == '0')).reverse

/-- The shortest text of a floating-point number. -/
def text (x : Binary64) : List Char :=
  if x.isNaN then "nan".toList
  else
    let body :=
      if x.isInfinite then "inf".toList
      else if x.isZero then "0.0".toList
      else match x.shortest? with
        | some (c, e) => layout (trimmedDigits c) (Decimal.magnitude c e)
        | none => []
    if x.isNegative then '-' :: body else body

end Formula.Binary64
