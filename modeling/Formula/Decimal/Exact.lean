import Formula.Decimal.Basic
import Formula.Failure

/-!
# Exact addition, subtraction and multiplication

Sums, differences and products of decimals are exact.  A sum has the smaller of the two exponents,
so no digit is lost and none is added; a product has the sum of the exponents.

The sign of a zero sum is positive unless both summands are negative, in which case both are zeros.
An operand that is not a number is the result, the left one before the right one.  Only two
combinations have no result: infinities of opposite signs have no sum, and an infinity and a zero
have no product.

`isOk_add`, `isOk_sub` and `isOk_mul` say that finite operands never fail.
-/

set_option autoImplicit false

-- Powers are those of the core library.
attribute [local instance (high)] instPowNat

namespace Formula.Decimal

/-- The coefficient of `n · 10 ^ e` when it is written with the exponent `low ≤ e`. -/
def rescale (n : Int) (e low : Int) : Int := n * 10 ^ (e - low).toNat

/-- The sum of two decimals. -/
def add : Decimal → Decimal → Except Failure Decimal
  | nan s, _ => .ok (nan s)
  | _, nan s => .ok (nan s)
  | infinity s, infinity t => if s = t then .ok (infinity s) else .error .invalidOperation
  | infinity s, finite .. => .ok (infinity s)
  | finite .., infinity s => .ok (infinity s)
  | finite s c e, finite t d f =>
    let low := min e f
    let sum := rescale (signed s c) e low + rescale (signed t d) f low
    .ok (if sum = 0 then finite (s && t) 0 low else finite (sum < 0) sum.natAbs low)

/-- The difference of two decimals. -/
def sub (a b : Decimal) : Except Failure Decimal := add a b.negate

/-- The product of two decimals. -/
def mul : Decimal → Decimal → Except Failure Decimal
  | nan s, _ => .ok (nan s)
  | _, nan s => .ok (nan s)
  | infinity s, infinity t => .ok (infinity (s != t))
  | infinity s, finite t d _ => if d = 0 then .error .invalidOperation else .ok (infinity (s != t))
  | finite s c _, infinity t => if c = 0 then .error .invalidOperation else .ok (infinity (s != t))
  | finite s c e, finite t d f => .ok (finite (s != t) (c * d) (e + f))

theorem isOk_add {a b : Decimal} (ha : a.isFinite) (hb : b.isFinite) :
    ∃ d, add a b = .ok d ∧ d.isFinite := by
  match a, b, ha, hb with
  | finite s c e, finite t d f, _, _ =>
    refine ⟨_, rfl, ?_⟩
    split <;> rfl

theorem isOk_sub {a b : Decimal} (ha : a.isFinite) (hb : b.isFinite) :
    ∃ d, sub a b = .ok d ∧ d.isFinite :=
  isOk_add ha (by cases b <;> simp_all [isFinite, negate])

theorem isOk_mul {a b : Decimal} (ha : a.isFinite) (hb : b.isFinite) :
    ∃ d, mul a b = .ok d ∧ d.isFinite := by
  cases a <;> cases b <;> simp_all [isFinite, mul]

end Formula.Decimal
