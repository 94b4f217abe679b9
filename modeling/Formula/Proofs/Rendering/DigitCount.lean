import Formula.Proofs.Numeric.Nearest
import Formula.Proofs.Rendering.Constant

/-!
# The size of a number in plain notation

Plain notation writes everything out: the zeros of a positive exponent, and those between the point
and the first digit of a small number.  So the text of a number can be much longer than its
coefficient.  How long it is depends on two things alone, the whole part of the number and the
places that it is written with (`digitCount_finite`).

* `digitCount d` — the number of digits in the plain notation of `d`.
* `digitCount_le` — a number below a power of ten has a whole part of no more digits, whatever its
  coefficient and its exponent are.
* `digitCount_le_length` — the sign and the point come on top of the digits.
-/

set_option autoImplicit false

-- Powers are those of the core library.
attribute [local instance (high)] instPowNat

namespace Formula.Decimal

/-- The number of digits in the plain notation of a decimal. -/
def digitCount (d : Decimal) : Nat := d.plain.countP Char.isDigit

theorem digitCount_le_length (d : Decimal) : d.digitCount ≤ d.plain.length :=
  List.countP_le_length

/-- The sign is no digit. -/
theorem digitCount_eq_countP (s : Bool) (c : Nat) (e : Int) :
    (finite s c e).digitCount = (plainDigits c e).countP Char.isDigit := by
  rw [digitCount, plain]
  split
  · rw [List.countP_cons_of_neg (by decide)]
  · rfl

/-- **The digits of the whole part, and the places.** -/
theorem digitCount_finite (s : Bool) (c : Nat) (e : Int) :
    (finite s c e).digitCount =
      Digits.count (c * 10 ^ e.toNat / 10 ^ (-e).toNat) + (-e).toNat := by
  rw [digitCount_eq_countP]
  rcases lt_or_ge e 0 with he | he
  · have hnonneg : e.toNat = 0 := by omega
    have hwhole : ∀ n, (Digits.ofNat n).countP Char.isDigit = Digits.count n :=
      fun n ↦ List.countP_eq_length.2 Digits.isDigit_of_mem_ofNat
    have hplaces : ∀ w n, (Digits.spell w n).countP Char.isDigit = w := fun w n ↦ by
      rw [List.countP_eq_length.2 Digits.isDigit_of_mem_spell, Digits.length_spell]
    rw [plainDigits, if_neg (Int.not_le.2 he)]
    dsimp only
    rw [Digits.write_eq, List.append_nil, List.countP_append, hwhole,
      List.countP_cons_of_neg (by decide), hplaces, hnonneg, Nat.pow_zero, Nat.mul_one]
  · have hplaces : (-e).toNat = 0 := by omega
    have hdigits : ∀ d ∈ plainDigits c e, d.isDigit := fun d hd ↦
      (Grammar.mem_plainDigits d hd).resolve_right fun h ↦ absurd h.1 (Int.not_lt.2 he)
    rw [List.countP_eq_length.2 hdigits, hplaces, Nat.pow_zero, Nat.div_one, Nat.add_zero,
      plainDigits, if_pos he]
    split
    · rename_i hc
      rw [hc, Nat.zero_mul]
      decide +kernel
    · rename_i hc
      rw [List.length_append, List.length_replicate, Digits.count_mul_pow hc]
      rfl

/-- There is at least one digit before the places. -/
theorem places_lt_digitCount (s : Bool) (c : Nat) (e : Int) :
    (-e).toNat < (finite s c e).digitCount := by
  have hpos := Digits.count_pos (c * 10 ^ e.toNat / 10 ^ (-e).toNat)
  rw [digitCount_finite]
  omega

/-- The whole part of a number below a power of ten is below that power. -/
theorem wholePart_lt {s : Bool} {c : Nat} {e : Int} {k : Nat}
    (h : |(finite s c e).toRat| < 10 ^ k) : c * 10 ^ e.toNat / 10 ^ (-e).toNat < 10 ^ k := by
  have hpos : 0 < 10 ^ (-e).toNat := Nat.pow_pos (by decide)
  rw [abs_toRat, ← Binary64.ratio_eq, div_lt_iff₀ (by exact_mod_cast hpos)] at h
  rw [Nat.div_lt_iff_lt_mul hpos]
  exact_mod_cast h

/-- **The digits of a number below a power of ten.** -/
theorem digitCount_le {s : Bool} {c : Nat} {e : Int} {k : Nat} (hk : 0 < k)
    (h : |(finite s c e).toRat| < 10 ^ k) : (finite s c e).digitCount ≤ k + (-e).toNat := by
  rw [digitCount_finite]
  exact Nat.add_le_add_right (Digits.count_le_of_lt_pow hk (wholePart_lt h)) _

end Formula.Decimal
