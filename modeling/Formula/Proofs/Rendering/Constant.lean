import Formula.Proofs.Digits
import Formula.Proofs.Rendering
import Formula.Proofs.Rendering.Writable

/-!
# Constants in plain notation

A constant is rendered in plain notation, which is a number literal again, of the plain form of the
constant (`Literal.plainDigits`).  The bounds of the dialect are no obstacle: writing out a positive
exponent moves no digit, so the leading digit keeps its exponent (`magnitude_mul_pow`).
-/

set_option autoImplicit false

-- Powers are those of the core library.
attribute [local instance (high)] instPowNat

namespace Formula.Grammar

/-- The characters of a number in plain notation: digits, and a point if there are places. -/
theorem mem_plainDigits {c : Nat} {e : Int} :
    ∀ d ∈ Decimal.plainDigits c e, d.isDigit ∨ e < 0 ∧ d = '.' := by
  intro d hd
  rw [Decimal.plainDigits] at hd
  split at hd
  · split at hd
    · obtain rfl := List.mem_singleton.1 hd
      exact .inl (by decide)
    · rcases List.mem_append.1 hd with hd | hd
      · exact .inl (Digits.isDigit_of_mem_ofNat d hd)
      · obtain rfl := (List.mem_replicate.1 hd).2
        exact .inl (by decide)
  · rename_i he
    rw [List.mem_append, List.mem_cons, Digits.write_eq, List.append_nil] at hd
    rcases hd with hd | rfl | hd
    · exact .inl (Digits.isDigit_of_mem_ofNat d hd)
    · exact .inr ⟨Int.not_le.1 he, rfl⟩
    · exact .inl (Digits.isDigit_of_mem_spell d hd)

/-- A number in plain notation begins with a digit. -/
theorem exists_cons_plainDigits (c : Nat) (e : Int) :
    ∃ d ds, Decimal.plainDigits c e = d :: ds ∧ d.isDigit := by
  have hofNat : ∀ n rest, ∃ d ds, Digits.ofNat n ++ rest = d :: ds ∧ d.isDigit := by
    intro n rest
    obtain ⟨d, ds, hd⟩ := List.exists_cons_of_ne_nil (Digits.ofNat_ne_nil n)
    exact ⟨d, ds ++ rest, by rw [hd]; rfl, Digits.isDigit_of_mem_ofNat d (hd ▸ List.mem_cons_self)⟩
  rw [Decimal.plainDigits]
  split
  · split
    · exact ⟨'0', [], rfl, by decide⟩
    · exact hofNat c _
  · exact hofNat _ _

/-- Writing out a positive exponent moves no digit. -/
theorem magnitude_mul_pow {c : Nat} {e : Int} (hc : c ≠ 0) (he : 0 ≤ e) :
    Decimal.magnitude (c * 10 ^ e.toNat) 0 = Decimal.magnitude c e := by
  rw [Decimal.magnitude, Decimal.magnitude, Digits.count_mul_pow hc]
  omega

theorem value_plainDigits {c : Nat} {e : Int} (he : 0 ≤ e) :
    Digits.value (Decimal.plainDigits c e) = c * 10 ^ e.toNat := by
  rw [Decimal.plainDigits, if_pos he]
  split
  · rename_i hc
    rw [hc, Nat.zero_mul]
    rfl
  · rw [Digits.value_append, Digits.value_ofNat, Digits.value_replicate_zero,
      List.length_replicate, Nat.add_zero]

theorem mul_pow_ne_zero_iff {c k : Nat} : c * 10 ^ k ≠ 0 ↔ c ≠ 0 :=
  ⟨fun h hc ↦ h (by rw [hc, Nat.zero_mul]),
    fun hc ↦ Nat.mul_ne_zero hc (Nat.pow_pos (by decide)).ne'⟩

/-- Writing out a positive exponent is all that plain notation does. -/
theorem plainDigits_mul_pow {c : Nat} {e : Int} (he : 0 ≤ e) :
    Decimal.plainDigits (c * 10 ^ e.toNat) 0 = Decimal.plainDigits c e := by
  rw [Decimal.plainDigits, if_pos (Int.le_refl 0), Decimal.plainDigits, if_pos he]
  by_cases hc : c = 0
  · rw [if_pos hc, if_pos (by rw [hc, Nat.zero_mul])]
  · rw [if_neg hc, if_neg (mul_pow_ne_zero_iff.2 hc), Digits.ofNat_mul_pow hc, Int.toNat_zero,
      List.replicate_zero, List.append_nil]

/-- **The plain form of a decimal has the same plain notation.** -/
theorem plain_plainForm (d : Decimal) : d.plainForm.plain = d.plain := by
  cases d with
  | infinity => rfl
  | nan => rfl
  | finite s c e =>
    rcases lt_or_ge e 0 with he | he
    · rw [Decimal.plainForm_of_neg he, Decimal.plain, Decimal.plain, Bool.and_assoc, Bool.and_self]
    · have hpow : 10 ^ e.toNat ≠ 0 := (Nat.pow_pos (by decide)).ne'
      rw [Decimal.plainForm_of_nonneg he, Decimal.plain, Decimal.plain, plainDigits_mul_pow he]
      simp only [mul_pow_ne_zero_iff, Bool.and_assoc, Bool.and_self]

theorem plainForm_plainForm (d : Decimal) : d.plainForm.plainForm = d.plainForm := by
  cases d with
  | infinity => rfl
  | nan => rfl
  | finite s c e =>
    rcases lt_or_ge e 0 with he | he
    · rw [Decimal.plainForm_of_neg he, Decimal.plainForm_of_neg he, Bool.and_assoc, Bool.and_self]
    · have hpow : 10 ^ e.toNat ≠ 0 := (Nat.pow_pos (by decide)).ne'
      rw [Decimal.plainForm_of_nonneg he, Decimal.plainForm_of_nonneg (Int.le_refl 0),
        Int.toNat_zero, Nat.pow_zero, Nat.mul_one]
      simp only [mul_pow_ne_zero_iff, Bool.and_assoc, Bool.and_self]

/-- Without places the notation is a whole number with the exponent zero. -/
theorem Literal.plainDigits_of_nonneg {dialect : Dialect} {s : Bool} {c : Nat} {e : Int}
    (h : Bounded dialect (.finite s c e)) (he : 0 ≤ e) :
    Literal dialect (Decimal.plainDigits c e) (.finite false (c * 10 ^ e.toNat) 0) := by
  obtain ⟨-, hmagnitude, hexponent, hfits⟩ := h
  have hzeroBound : 0 ≤ dialect.maxLiteralExponent := Int.le_trans (Int.natCast_nonneg _) hexponent
  have hdigits : ∀ d ∈ Decimal.plainDigits c e, d.isDigit := by
    intro d hd
    rcases mem_plainDigits d hd with hd | ⟨hlt, -⟩
    · exact hd
    · omega
  have hne : Decimal.plainDigits c e ≠ [] := by
    obtain ⟨d, ds, hd, -⟩ := exists_cons_plainDigits c e
    simp [hd]
  have hbound : (Decimal.magnitude (c * 10 ^ e.toNat) 0).natAbs ≤ dialect.maxLiteralExponent ∧
      (Decimal.finite false (c * 10 ^ e.toNat) 0).fits := by
    by_cases hc : c = 0
    · have hzero : Decimal.magnitude 0 0 = 0 ∧ (Decimal.finite false 0 0).fits = true := by
        decide +kernel
      rw [hc, Nat.zero_mul, hzero.1]
      exact ⟨hzeroBound, hzero.2⟩
    · rw [Decimal.fits, magnitude_mul_pow hc he]
      exact ⟨hmagnitude, hfits⟩
  have hliteral : Literal dialect (Decimal.plainDigits c e ++ [])
      (.finite false (c * 10 ^ e.toNat) 0) :=
    .intro (.whole hne hdigits) .none (by rw [List.append_nil, value_plainDigits he]) rfl
      (fun _ ↦ by rw [List.append_nil]; exact hdigits) hbound.1 hzeroBound hbound.2
  rwa [List.append_nil] at hliteral

/-- With places the notation keeps the coefficient and the exponent. -/
theorem Literal.plainDigits_of_neg {dialect : Dialect} {s : Bool} {c : Nat} {e : Int}
    (h : Bounded dialect (.finite s c e)) (he : e < 0) :
    Literal dialect (Decimal.plainDigits c e) (.finite false c e) := by
  obtain ⟨hstrict, hmagnitude, hexponent, hfits⟩ := h
  have hplaces : ((-e).toNat : Int) = -e := Int.toNat_of_nonneg (by omega)
  have hliteral : Literal dialect
      ((Digits.ofNat (c / 10 ^ (-e).toNat) ++
        '.' :: Digits.spell (-e).toNat (c % 10 ^ (-e).toNat)) ++ [])
      (.finite false c e) := by
    refine .intro (.both (Digits.ofNat_ne_nil _) Digits.isDigit_of_mem_ofNat
      Digits.isDigit_of_mem_spell) .none ?_ ?_ (fun hs ↦ absurd (hstrict hs).2 (Int.not_le.2 he))
      hmagnitude hexponent hfits
    · rw [Digits.value_append, Digits.value_ofNat, Digits.length_spell, Digits.value_spell,
        Nat.mod_mod, Nat.div_add_mod']
    · rw [Digits.length_spell, hplaces]
      omega
  rw [Decimal.plainDigits, if_neg (Int.not_le.2 he)]
  dsimp only
  rwa [Digits.write_eq, List.append_nil, ← List.append_nil (_ ++ _)]

/-- **The plain notation of a constant is a number literal.** -/
theorem Literal.plainDigits {dialect : Dialect} {s : Bool} {c : Nat} {e : Int}
    (h : Bounded dialect (.finite s c e)) :
    Literal dialect (Decimal.plainDigits c e) (Decimal.finite false c e).plainForm := by
  rcases lt_or_ge e 0 with he | he
  · rw [Decimal.plainForm_of_neg he, Bool.false_and]
    exact .plainDigits_of_neg h he
  · rw [Decimal.plainForm_of_nonneg he, Bool.false_and]
    exact .plainDigits_of_nonneg h he

end Formula.Grammar
