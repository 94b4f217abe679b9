import Formula.Decimal.Exact

/-!
# The order of decimals

Decimals are compared by value, so `1` and `1.00` are equal in this order.  The infinities lie at
the ends.  A value that is not a number has no place in the order, and comparing it fails.
-/

set_option autoImplicit false

namespace Formula.Decimal

/-- Is the first decimal at most as large as the second? -/
def le : Decimal → Decimal → Except Failure Bool
  | nan _, _ => .error .invalidOperation
  | _, nan _ => .error .invalidOperation
  | infinity s, infinity t => .ok (s || !t)
  | infinity s, finite .. => .ok s
  | finite .., infinity t => .ok (!t)
  | finite s c e, finite t d f =>
    let low := min e f
    .ok (rescale (signed s c) e low ≤ rescale (signed t d) f low)

/-- The larger of two decimals, the first of them on a tie. -/
def max (a b : Decimal) : Except Failure Decimal := do
  return if ← le b a then a else b

end Formula.Decimal
