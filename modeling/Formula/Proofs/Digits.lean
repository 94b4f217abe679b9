import Formula.Digits
import Mathlib.Data.Nat.Log

/-!
# The digits that are written

`Formula.Digits` shows that reading gives back the number that was written.  This file adds what the
written text looks like.

* `isDigit_of_mem_spell`, `isDigit_of_mem_ofNat` — it consists of digits.
* `value_lt` — a number has no more digits than its text.
* `count_eq_log` — `count` is the logarithm that one expects, so a power of ten is a matter of zeros
  (`count_mul_pow`, `ofNat_mul_pow`), and a number below one has few digits
  (`count_le_of_lt_pow`).
* `ofNat_eq_toDigits`, `intText_eq_toString` — what is written is the numeral that the standard
  library writes, although that finds its digits one by one.
-/

set_option autoImplicit false

-- Powers are those of the core library.
attribute [local instance (high)] instPowNat

namespace Formula.Digits

theorem toNat_of_isDigit {c : Char} (h : c.isDigit) : 48 ≤ c.toNat ∧ c.toNat ≤ 57 :=
  Char.isDigit_iff_toNat.1 h

theorem le_toNat_of_isAlpha {c : Char} (h : c.isAlpha) : 65 ≤ c.toNat := by
  rcases Bool.or_eq_true_iff.1 h with h | h
  · exact UInt32.le_iff_toNat_le.1 (of_decide_eq_true h : 'A'.val ≤ c.val ∧ _).1
  · have hlower : 97 ≤ c.toNat :=
      UInt32.le_iff_toNat_le.1 (of_decide_eq_true (Bool.and_eq_true_iff.1 h).1)
    omega

theorem isDigit_digitChar {d : Nat} (h : d < 10) : (Nat.digitChar d).isDigit := by
  revert d
  decide

theorem isDigit_of_mem_spell {w n : Nat} : ∀ c ∈ spell w n, c.isDigit := by
  induction w generalizing n with
  | zero => simp [spell]
  | succ w ih =>
    intro c hc
    rw [spell, List.mem_append, List.mem_singleton] at hc
    rcases hc with hc | rfl
    · exact ih c hc
    · exact isDigit_digitChar (Nat.mod_lt _ (by decide))

theorem isDigit_of_mem_ofNat {n : Nat} : ∀ c ∈ ofNat n, c.isDigit := by
  intro c hc
  rw [ofNat] at hc
  split at hc
  · obtain rfl := List.mem_singleton.1 hc
    decide
  · rename_i c' cs h
    rw [← h, write_eq, List.append_nil] at hc
    exact isDigit_of_mem_spell c ((List.dropWhile_suffix _).subset hc)

/-- A list of digits denotes a number below a power of ten. -/
theorem value_lt {cs : List Char} (h : ∀ c ∈ cs, c.isDigit) : value cs < 10 ^ cs.length := by
  induction cs with
  | nil => decide
  | cons c cs ih =>
    have hc : c.toNat - 48 ≤ 9 := by
      have := (toNat_of_isDigit (h c List.mem_cons_self)).2
      omega
    have hcs := ih fun d hd ↦ h d (List.mem_cons_of_mem c hd)
    rw [value_cons, List.length_cons, Nat.pow_succ]
    calc (c.toNat - 48) * 10 ^ cs.length + value cs
        < (c.toNat - 48) * 10 ^ cs.length + 10 ^ cs.length := Nat.add_lt_add_left hcs _
      _ ≤ 9 * 10 ^ cs.length + 10 ^ cs.length :=
        Nat.add_le_add_right (Nat.mul_le_mul_right _ hc) _
      _ = 10 ^ cs.length * 10 := by omega

/-- A list of digits without a leading zero denotes no number of fewer digits. -/
theorem pow_le_value {c : Char} {cs : List Char} (hc : c.isDigit) (hne : c ≠ '0') :
    10 ^ cs.length ≤ value (c :: cs) := by
  have hpos : 1 ≤ c.toNat - 48 := by
    have hle := (toNat_of_isDigit hc).1
    have h48 : c.toNat ≠ 48 := fun h ↦ hne (Char.ext (UInt32.toNat_inj.1 h))
    omega
  rw [value_cons]
  calc 10 ^ cs.length = 1 * 10 ^ cs.length := (Nat.one_mul _).symm
    _ ≤ (c.toNat - 48) * 10 ^ cs.length := Nat.mul_le_mul_right _ hpos
    _ ≤ (c.toNat - 48) * 10 ^ cs.length + value cs := Nat.le_add_right _ _

theorem lt_pow_count (n : Nat) : n < 10 ^ count n := by
  have h := value_lt (isDigit_of_mem_ofNat (n := n))
  rwa [value_ofNat] at h

theorem pow_count_le {n : Nat} (hn : n ≠ 0) : 10 ^ (count n - 1) ≤ n := by
  obtain ⟨c, cs, h⟩ := List.exists_cons_of_ne_nil (ofNat_ne_nil n)
  have hc : c ≠ '0' := by
    rintro rfl
    exact head?_ofNat_ne_zero hn (by rw [h]; rfl)
  have hle : 10 ^ cs.length ≤ value (c :: cs) :=
    pow_le_value (isDigit_of_mem_ofNat c (h ▸ List.mem_cons_self)) hc
  rw [← h, value_ofNat] at hle
  rw [count, h]
  exact hle

/-- The number of digits is a logarithm. -/
theorem count_eq_log (n : Nat) : count n = Nat.log 10 n + 1 := by
  have hpos := count_pos n
  by_cases hn : n = 0
  · subst hn
    decide +kernel
  · have h : Nat.log 10 n = count n - 1 :=
      Nat.log_eq_of_pow_le_of_lt_pow (pow_count_le hn) (by
        rw [Nat.sub_add_cancel hpos]
        exact lt_pow_count n)
    omega

/-- Below a power of ten the digits are no more than its zeros, except that zero has one as well. -/
theorem count_le_of_lt_pow {n k : Nat} (hk : 0 < k) (h : n < 10 ^ k) : count n ≤ k := by
  have hlog : Nat.log 10 n < k := Nat.log_lt_of_lt_pow' hk.ne' h
  rw [count_eq_log]
  exact hlog

/-- The digits of a number are those of a quotient by a power of ten and those that are cut off. -/
theorem count_le_count_div (n k : Nat) : count n ≤ count (n / 10 ^ k) + k := by
  refine count_le_of_lt_pow (Nat.add_pos_left (count_pos _) k) ?_
  rw [Nat.pow_add, ← Nat.div_lt_iff_lt_mul (Nat.pow_pos (by decide))]
  exact lt_pow_count _

/-- A power of ten adds its zeros to the digits. -/
theorem count_mul_pow {n : Nat} (hn : n ≠ 0) (k : Nat) : count (n * 10 ^ k) = count n + k := by
  have hpos := count_pos n
  have hlower : 10 ^ (count n - 1 + k) ≤ n * 10 ^ k := by
    rw [Nat.pow_add]
    exact Nat.mul_le_mul_right _ (pow_count_le hn)
  have hupper : n * 10 ^ k < 10 ^ (count n - 1 + k + 1) := by
    have h : count n - 1 + k + 1 = count n + k := by omega
    rw [h, Nat.pow_add]
    exact Nat.mul_lt_mul_of_pos_right (lt_pow_count n) (Nat.pow_pos (by decide))
  rw [count_eq_log, Nat.log_eq_of_pow_le_of_lt_pow hlower hupper]
  omega

/-- Leading zeros add nothing to the digits of a number. -/
theorem count_value_le {cs : List Char} (hne : cs ≠ []) (h : ∀ c ∈ cs, c.isDigit) :
    count (value cs) ≤ cs.length := by
  have hlength := List.length_pos_iff.2 hne
  by_cases hzero : value cs = 0
  · have hcount : count 0 = 1 := by decide +kernel
    rw [hzero, hcount]
    exact hlength
  · have hlt := Nat.lt_of_le_of_lt (pow_count_le hzero) (value_lt h)
    have := (Nat.pow_lt_pow_iff_right (by decide)).1 hlt
    omega

theorem value_replicate_zero (k : Nat) : value (List.replicate k '0') = 0 := by
  induction k with
  | zero => rfl
  | succ k ih => simp [List.replicate_succ, value_cons, ih]

/-! ## Numerals of the standard library -/

theorem digitChar_ne_zero {d : Nat} (h : d < 10) (hd : d ≠ 0) : Nat.digitChar d ≠ '0' := by
  revert d
  decide

theorem dropWhile_spell_zero (w : Nat) (cs : List Char) :
    (spell w 0 ++ cs).dropWhile (· == '0') = cs.dropWhile (· == '0') := by
  refine List.dropWhile_append_of_pos fun c hc ↦ ?_
  induction w with
  | zero => cases hc
  | succ w ih =>
    rw [spell, List.mem_append, List.mem_singleton] at hc
    rcases hc with hc | rfl
    · exact ih hc
    · rfl

/-- In every width that is wide enough the same digits are left without the leading zeros. -/
theorem dropWhile_spell {w n : Nat} (hn : n ≠ 0) (h : n < 10 ^ w) :
    (spell w n).dropWhile (· == '0') = Nat.toDigits 10 n := by
  induction w generalizing n with
  | zero => omega
  | succ w ih =>
    rw [Nat.pow_succ] at h
    rw [spell]
    rcases Nat.lt_or_ge n 10 with hlt | hge
    · rw [Nat.div_eq_of_lt hlt, Nat.mod_eq_of_lt hlt, dropWhile_spell_zero,
        Nat.toDigits_of_lt_base hlt]
      simp [digitChar_ne_zero hlt hn]
    · have hupper := ih (n := n / 10) (by omega) (by omega)
      have hne : (Nat.toDigits 10 (n / 10)).isEmpty = false := by
        simp [Nat.toDigits_ne_nil]
      rw [List.dropWhile_append, hupper, hne, Nat.toDigits_of_base_le (by decide) hge]
      rfl

theorem ofNat_eq_toDigits (n : Nat) : ofNat n = Nat.toDigits 10 n := by
  by_cases hn : n = 0
  · subst hn
    decide +kernel
  · have h := dropWhile_spell hn (lt_pow_width n)
    rw [ofNat, write_eq, List.append_nil, h]
    split
    · rename_i hnil
      exact absurd hnil Nat.toDigits_ne_nil
    · rename_i hcons
      exact hcons.symm

/-- A power of ten puts its zeros behind the digits. -/
theorem ofNat_mul_pow {n : Nat} (hn : n ≠ 0) (k : Nat) :
    ofNat (n * 10 ^ k) = ofNat n ++ List.replicate k '0' := by
  rw [ofNat_eq_toDigits, ofNat_eq_toDigits]
  induction k with
  | zero => rw [Nat.pow_zero, Nat.mul_one, List.replicate_zero, List.append_nil]
  | succ k ih =>
    have hpos : 0 < n * 10 ^ k := Nat.mul_pos (Nat.pos_of_ne_zero hn) (Nat.pow_pos (by decide))
    rw [Nat.pow_succ, ← Nat.mul_assoc, Nat.toDigits_of_base_le (by decide) (by omega),
      Nat.mul_div_cancel _ (by decide), Nat.mul_mod_left, ih, List.replicate_succ',
      List.append_assoc]
    rfl

/-- **A whole number is written as its numeral.** -/
theorem intText_eq_toString (z : Int) : intText z = toString z := by
  cases z with
  | ofNat n =>
    show String.ofList (ofNat n) = String.ofList (Nat.toDigits 10 n)
    rw [ofNat_eq_toDigits]
  | negSucc n =>
    rw [intText, ofInt, if_pos (Int.negSucc_lt_zero n), Int.natAbs_negSucc, ofNat_eq_toDigits]
    exact @String.ofList_append ['-'] (Nat.toDigits 10 n.succ)

end Formula.Digits
