/-!
# Decimal digits of natural numbers

Numbers are read and written in decimal notation, and the size of a number is its number of digits.
Coefficients can have a hundred thousand digits, so the digits are not found one by one: `write`
splits a number in the middle, which leaves most of the work to a few divisions of large numbers.

* `spell w n` — the last `w` digits of `n`, found one by one.  It is the plain description that
  `write` is measured against: `write_eq` says that `write w n acc` is `spell w n ++ acc`.
* `ofNat n` — the digits of `n` without leading zeros, and a single `0` for zero.
* `value cs` — the number that a list of digits denotes.
* `value_ofNat` — reading gives back what was written, and `head?_ofNat_ne_zero` — no number other
  than zero is written with a leading zero.
* `count n` — the number of digits of `n`; zero has one digit.
* `ofInt n` — a whole number with its sign.
-/

set_option autoImplicit false

-- Powers are those of the core library.
attribute [local instance (high)] instPowNat

namespace Formula.Digits

/-! ## Reading -/

/-- The number that a list of digits denotes, the most significant digit first. -/
def value (cs : List Char) : Nat := cs.foldl (fun n c ↦ 10 * n + (c.toNat - 48)) 0

theorem value_append_singleton (cs : List Char) (c : Char) :
    value (cs ++ [c]) = 10 * value cs + (c.toNat - 48) := by
  simp [value]

theorem foldl_eq_value (cs : List Char) (n : Nat) :
    cs.foldl (fun n c ↦ 10 * n + (c.toNat - 48)) n = n * 10 ^ cs.length + value cs := by
  induction cs generalizing n with
  | nil => simp [value]
  | cons c cs ih =>
    simp only [List.foldl_cons, List.length_cons, value]
    rw [ih, ih]
    grind

theorem value_cons (c : Char) (cs : List Char) :
    value (c :: cs) = (c.toNat - 48) * 10 ^ cs.length + value cs := by
  rw [value, List.foldl_cons, foldl_eq_value]
  simp

theorem value_append (cs ds : List Char) :
    value (cs ++ ds) = value cs * 10 ^ ds.length + value ds := by
  rw [value, List.foldl_append, foldl_eq_value]
  rfl

/-! ## Writing a number in a given width -/

/-- The last `w` digits of `n`, the most significant digit first. -/
def spell : Nat → Nat → List Char
  | 0, _ => []
  | w + 1, n => spell w (n / 10) ++ [Nat.digitChar (n % 10)]

theorem length_spell (w n : Nat) : (spell w n).length = w := by
  induction w generalizing n with
  | zero => rfl
  | succ w ih => simp [spell, ih]

/-- A number falls into its upper and its lower digits. -/
theorem spell_add (v w n : Nat) : spell (v + w) n = spell v (n / 10 ^ w) ++ spell w n := by
  induction w generalizing n with
  | zero => simp [spell]
  | succ w ih =>
    rw [← Nat.add_assoc, spell, ih, spell, List.append_assoc, Nat.div_div_eq_div_mul,
      Nat.pow_succ']

/-- Higher digits have no influence on the lower ones. -/
theorem spell_mod (w n : Nat) : spell w (n % 10 ^ w) = spell w n := by
  induction w generalizing n with
  | zero => rfl
  | succ w ih =>
    have h : n % 10 ^ (w + 1) / 10 = n / 10 % 10 ^ w := by
      rw [Nat.pow_succ', Nat.mod_mul_right_div_self]
    rw [spell, spell, h, ih, Nat.pow_succ', Nat.mod_mul_right_mod]

theorem toNat_digitChar {d : Nat} (h : d < 10) : (Nat.digitChar d).toNat - 48 = d := by
  revert d
  decide

theorem value_spell (w n : Nat) : value (spell w n) = n % 10 ^ w := by
  induction w generalizing n with
  | zero => simp [spell, value, Nat.mod_one]
  | succ w ih =>
    rw [spell, value_append_singleton, ih, toNat_digitChar (Nat.mod_lt _ (by decide)),
      Nat.pow_succ', Nat.mod_mul]
    omega

/-- The last `width` digits of `n`, followed by `acc`.  The digits are split in the middle. -/
def write (width n : Nat) (acc : List Char) : List Char :=
  if width = 0 then acc
  else if width = 1 then Nat.digitChar (n % 10) :: acc
  else
    let low := width / 2
    let unit := 10 ^ low
    write (width - low) (n / unit) (write low (n % unit) acc)
termination_by width

theorem write_eq (width n : Nat) (acc : List Char) :
    write width n acc = spell width n ++ acc := by
  fun_induction write width n acc with
  | case1 => simp [spell]
  | case2 => simp [spell]
  | case3 width n acc h0 h1 low unit ihLow ihLow' ihHigh =>
    have h : width = (width - low) + low := by omega
    rw [ihHigh, ihLow, spell_mod, ← List.append_assoc]
    conv => rhs; rw [h, spell_add]

/-! ## Writing a number in full -/

/-- The digits of a number, without leading zeros. -/
def ofNat (n : Nat) : List Char :=
  match (write (n.log2 / 3 + 1) n []).dropWhile (· == '0') with
  | [] => ['0']
  | c :: cs => c :: cs

/-- The number of digits of a number; zero has one. -/
def count (n : Nat) : Nat := (ofNat n).length

theorem ofNat_ne_nil (n : Nat) : ofNat n ≠ [] := by
  unfold ofNat
  split <;> simp

theorem count_pos (n : Nat) : 0 < count n := List.length_pos_iff.2 (ofNat_ne_nil n)

/-- The width in which `ofNat` writes a number is wide enough. -/
theorem lt_pow_width (n : Nat) : n < 10 ^ (n.log2 / 3 + 1) := by
  have h1 : n < 2 ^ (n.log2 + 1) := Nat.lt_log2_self
  have h2 : 2 ^ (n.log2 + 1) ≤ 2 ^ (3 * (n.log2 / 3 + 1)) :=
    Nat.pow_le_pow_right (by decide) (by omega)
  have h3 : 2 ^ (3 * (n.log2 / 3 + 1)) ≤ 10 ^ (n.log2 / 3 + 1) := by
    rw [Nat.pow_mul]
    exact Nat.pow_le_pow_left (by decide) _
  omega

theorem value_dropWhile (cs : List Char) : value (cs.dropWhile (· == '0')) = value cs := by
  induction cs with
  | nil => rfl
  | cons c cs ih =>
    by_cases h : c = '0'
    · subst h
      simp [value_cons, ih]
    · simp [h]

/-- Reading gives back the number that was written. -/
theorem value_ofNat (n : Nat) : value (ofNat n) = n := by
  have h : value ((write (n.log2 / 3 + 1) n []).dropWhile (· == '0')) = n := by
    rw [value_dropWhile, write_eq, List.append_nil, value_spell,
      Nat.mod_eq_of_lt (lt_pow_width n)]
  unfold ofNat
  split
  · rename_i h0
    rw [h0] at h
    rw [← h]
    rfl
  · rename_i h0
    rw [← h0, h]

/-- Only zero is written with a leading zero. -/
theorem head?_ofNat_ne_zero {n : Nat} (hn : n ≠ 0) : (ofNat n).head? ≠ some '0' := by
  intro h
  have hv := value_ofNat n
  unfold ofNat at h hv
  split at h
  · rename_i h0
    rw [h0] at hv
    exact hn hv.symm
  · rename_i c cs h0
    have := List.head?_dropWhile_not (· == '0') (write (n.log2 / 3 + 1) n [])
    rw [h0] at this
    simp at this h
    exact this h

/-! ## Whole numbers with a sign -/

/-- A whole number in decimal notation. -/
def ofInt (n : Int) : List Char := if n < 0 then '-' :: ofNat n.natAbs else ofNat n.natAbs

/-- `ofInt` as a string. -/
def intText (n : Int) : String := String.ofList (ofInt n)

/-- `ofNat` as a string. -/
def natText (n : Nat) : String := String.ofList (ofNat n)

end Formula.Digits
