import Formula.Binary64.Shortest

/-!
# Floating-point numbers with a given number of places

Where the shortest text will not do, a floating-point number is written with as many digits as are
asked for, rounded from its exact value, a half to the even neighbour.  All texts of this file leave
the sign out, and the two infinities and the value that is not a number are not theirs.

* `positional` — a given number of digits after the point.
* `scientific` — one digit before the point, a given number after it, and an exponent.
* `general` — a given number of significant digits, positionally unless the exponent of the first is
  below `-4` or too large for them.  Zeros at the end of the fraction are left out.

Without digits after it, the point is left out as well.  The option `full` keeps such points, and in
`general` the zeros too.
-/

set_option autoImplicit false

-- Powers are those of the core library.
attribute [local instance (high)] instPowNat

namespace Formula.Binary64

/-- Digits with a point before the last `places` of them. -/
def pointed (full : Bool) (ds : List Char) (places : Nat) : List Char :=
  let whole := ds.take (ds.length - places)
  if places = 0 then if full then whole ++ ['.'] else whole
  else whole ++ '.' :: ds.drop (ds.length - places)

/-- The digits of a number in a given width at least. -/
def widened (width n : Nat) : List Char :=
  let ds := Digits.ofNat n
  List.replicate (width - ds.length) '0' ++ ds

/-- The number with a given number of digits after the point. -/
def positional (full : Bool) (places : Nat) (x : Binary64) : List Char :=
  let (n, d) := x.ratio
  pointed full (widened (places + 1) (roundEven (n * 10 ^ places) d)) places

/-- The first `count` significant digits and the exponent of the first. -/
def significant (count : Nat) (x : Binary64) : List Char × Int :=
  if x.isZero then (List.replicate count '0', 0)
  else
    let (n, d) := x.ratio
    let lead := leadingExponent n d
    let shift := (count : Int) - 1 - lead
    let ds := Digits.ofNat (roundEven (n * 10 ^ shift.toNat) (d * 10 ^ (-shift).toNat))
    (ds.take count, lead + (ds.length - count : Nat))

/-- The number with one digit before the point, a given number of them after it and an exponent. -/
def scientific (full : Bool) (places : Nat) (x : Binary64) : List Char :=
  let (ds, lead) := x.significant (places + 1)
  pointed full ds places ++ exponentText lead

/-- Digits without the zeros at the end of the last `places` of them, and the places left. -/
def withoutZeros (ds : List Char) (places : Nat) : List Char × Nat :=
  let kept := (((ds.drop (ds.length - places)).reverse.dropWhile (· == '0'))).reverse
  (ds.take (ds.length - places) ++ kept, kept.length)

/-- The number with a given number of significant digits. -/
def general (full : Bool) (count : Nat) (x : Binary64) : List Char :=
  let count := max count 1
  let (ds, lead) := x.significant count
  let spread := lead < -4 ∨ (count : Int) ≤ lead
  let ds := if spread ∨ 0 ≤ lead then ds else List.replicate (-lead).toNat '0' ++ ds
  let places := if spread then count - 1 else (count - 1 - lead).toNat
  let (ds, places) := if full then (ds, places) else withoutZeros ds places
  pointed full ds places ++ if spread then exponentText lead else []

end Formula.Binary64
