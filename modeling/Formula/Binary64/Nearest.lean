import Formula.Binary64.Basic

/-!
# The floating-point number nearest to a decimal

A decimal that enters the floating-point part of the arithmetic becomes the nearest binary
floating-point number; of two equally near ones, the one whose last bit is zero.  Beyond the largest
number lies an infinity.

* `roundEven n d` — the natural number nearest to `n / d`, a half going to the even neighbour.
* `floorLog2 n d` — the exponent of the leading bit of `n / d`.
* `nearestPattern n d` — the bits of the number nearest to `n / d`.  A significand `m` and a shift
  `q` are written as `(q + 1074) · 2 ^ 52 + m`: for a subnormal number the first part vanishes, for
  a normal one the leading bit of `m` adds one to the exponent field, and a significand that was
  rounded up to `2 ^ 53` carries into the exponent field as it should.
* `ofDecimal d` — the nearest number.  Decimals whose leading digit lies far beyond the range are
  decided by that digit, without writing them out.
-/

set_option autoImplicit false

-- Powers are those of the core library.
attribute [local instance (high)] instPowNat

namespace Formula.Binary64

/-- The natural number nearest to `n / d`; a half goes to the even neighbour. -/
def roundEven (n d : Nat) : Nat :=
  let q := n / d
  let r := n % d
  if d < 2 * r ∨ (d = 2 * r ∧ q % 2 = 1) then q + 1 else q

/-- The quotient `n / d` times `2 ^ k`, as a numerator and a denominator. -/
def scaleRatio (n d : Nat) (k : Int) : Nat × Nat := (n * 2 ^ k.toNat, d * 2 ^ (-k).toNat)

/-- The exponent of the leading bit of `n / d`. -/
def floorLog2 (n d : Nat) : Int :=
  let k : Int := (n.log2 : Int) - d.log2
  let (n', d') := scaleRatio n d (-k)
  if d' ≤ n' then k else k - 1

/-- The bits of the floating-point number nearest to the positive quotient `n / d`. -/
def nearestPattern (n d : Nat) : Nat :=
  let q := max (floorLog2 n d - 52) (-1074)
  let (n', d') := scaleRatio n d (-q)
  min ((q + 1074).toNat * 0x10000000000000 + roundEven n' d') 0x7ff0000000000000

/-- The floating-point number nearest to a decimal. -/
def ofDecimal : Decimal → Binary64
  | .nan _ => nan
  | .infinity s => infinity s
  | .finite s c e =>
    if c = 0 then ofPattern s 0
    else if 309 < Decimal.magnitude c e then infinity s
    else if Decimal.magnitude c e < -400 then ofPattern s 0
    else ofPattern s (nearestPattern (c * 10 ^ e.toNat) (10 ^ (-e).toNat))

-- A tenth is rounded up.
example : (ofDecimal (.finite false 1 (-1))).bits = 0x3fb999999999999a := by decide +kernel

end Formula.Binary64
