import Formula.Proofs.Grammar
import Mathlib.Data.List.TakeDrop
import Mathlib.Data.List.TakeWhile

/-!
# Reading number literals

`Decimal.literal?` cuts a word with `List.span`, first at the end of the digits, then at the end of
the digits after the point, and looks at what is left.  This file shows that it reads exactly the
words that the grammar has for numbers.

* `literal?_eq_some_iff` — without bounds: what is read is a mantissa and an exponent.
* `number_eq_ok_iff` — with the bounds of a dialect.
* `fits_of_magnitude_le` — the reader asks first whether the decimal can be held at all, but as long
  as the bound for exponents can itself be held, that question decides nothing.
-/

set_option autoImplicit false

namespace Formula.Grammar

/-- Cutting after the digits finds the digits, if what follows begins with none. -/
theorem span_digits {ds rest : List Char} (hds : ∀ c ∈ ds, c.isDigit)
    (hrest : ∀ c ∈ rest.head?, c.isDigit = false) :
    (ds ++ rest).span Char.isDigit = (ds, rest) := by
  rw [List.span_eq_takeWhile_dropWhile, List.takeWhile_append_of_pos hds,
    List.dropWhile_append_of_pos hds]
  cases rest with
  | nil => simp
  | cons c rest => simp [hrest c rfl]

theorem Exponent.head?_not_isDigit {word : List Char} {n : Nat} (h : Exponent word n) :
    ∀ c ∈ word.head?, c.isDigit = false := by
  cases h with
  | none => simp
  | some hc =>
    rintro _ ⟨rfl⟩
    obtain rfl | rfl := hc <;> decide

theorem literalExponent?_eq_some_iff {word : List Char} {n : Nat} :
    Decimal.literalExponent? word = some n ↔ Exponent word n := by
  constructor
  · intro h
    unfold Decimal.literalExponent? at h
    split at h
    · obtain rfl := Option.some.inj h
      exact .none
    · split at h
      · rename_i hcond
        obtain rfl := Option.some.inj h
        exact .some hcond.1 hcond.2.1 (by simpa using hcond.2.2)
      · simp at h
  · rintro (_ | ⟨hc, hne, hds⟩)
    · rfl
    · simp only [Decimal.literalExponent?]
      rw [if_pos ⟨hc, hne, List.all_eq_true.2 hds⟩]

/-- What follows the digits of a literal falls into the digits after a point and the rest. -/
theorem literalFraction_spec {rest fraction tail : List Char}
    (h : Decimal.literalFraction rest = (fraction, tail)) :
    (rest = tail ∧ fraction = []) ∨
      (rest = '.' :: (fraction ++ tail) ∧ ∀ c ∈ fraction, c.isDigit) := by
  unfold Decimal.literalFraction at h
  split at h
  · rename_i rest
    rw [List.span_eq_takeWhile_dropWhile, Prod.mk.injEq] at h
    obtain ⟨rfl, rfl⟩ := h
    refine .inr ⟨by rw [List.takeWhile_append_dropWhile], fun c hc ↦ ?_⟩
    exact List.mem_takeWhile_imp hc
  · rw [Prod.mk.injEq] at h
    exact .inl ⟨h.2, h.1.symm⟩

/-- `Decimal.literal?` in terms of its two cuts. -/
theorem literal?_of_cuts {word whole rest fraction tail : List Char} {n : Nat}
    (hword : word.span Char.isDigit = (whole, rest))
    (hrest : Decimal.literalFraction rest = (fraction, tail)) (htail : Exponent tail n)
    (hne : ¬(whole = [] ∧ fraction = [])) :
    Decimal.literal? word = some (Decimal.ofParts whole fraction n) := by
  rw [Decimal.literal?]
  rw [hword]
  dsimp only
  rw [hrest]
  dsimp only
  rw [if_neg hne, literalExponent?_eq_some_iff.2 htail]
  rfl

/-- A mantissa is cut at its point. -/
theorem Mantissa.literal?_append {mantissa whole fraction tail : List Char} {n : Nat}
    (hm : Mantissa mantissa whole fraction) (htail : Exponent tail n) :
    Decimal.literal? (mantissa ++ tail) = some (Decimal.ofParts whole fraction n) := by
  have hpoint : ∀ rest : List Char, ∀ c ∈ ('.' :: rest).head?, c.isDigit = false := by
    rintro rest _ ⟨rfl⟩
    decide
  have hfraction : ∀ {fs : List Char}, (∀ c ∈ fs, c.isDigit) →
      Decimal.literalFraction ('.' :: (fs ++ tail)) = (fs, tail) :=
    fun hfs ↦ span_digits hfs htail.head?_not_isDigit
  cases hm with
  | whole hne hds =>
    refine literal?_of_cuts (span_digits hds htail.head?_not_isDigit) ?_ htail (hne ·.1)
    cases htail with
    | none => rfl
    | some hc => obtain rfl | rfl := hc <;> rfl
  | both hne hds hfs =>
    rw [List.append_assoc, List.cons_append]
    exact literal?_of_cuts (span_digits hds (hpoint _)) (hfraction hfs) htail (hne ·.1)
  | fraction hne hfs =>
    have hnil : ∀ c ∈ ([] : List Char), c.isDigit := by simp
    exact literal?_of_cuts (span_digits hnil (hpoint _)) (hfraction hfs) htail (hne ·.2)

/-- A word that is read is a mantissa and an exponent. -/
theorem literal?_eq_some_iff {word : List Char} {d : Decimal} :
    Decimal.literal? word = some d ↔
      ∃ mantissa whole fraction tail n, word = mantissa ++ tail ∧
        Mantissa mantissa whole fraction ∧ Exponent tail n ∧
          d = Decimal.ofParts whole fraction n := by
  constructor
  · intro h
    have hsplit := List.takeWhile_append_dropWhile (p := Char.isDigit) (l := word)
    have hwhole : ∀ c ∈ word.takeWhile Char.isDigit, c.isDigit :=
      fun c hc ↦ List.mem_takeWhile_imp hc
    rw [Decimal.literal?, List.span_eq_takeWhile_dropWhile] at h
    generalize word.takeWhile Char.isDigit = whole at h hsplit hwhole
    generalize word.dropWhile Char.isDigit = rest at h hsplit
    rcases hf : Decimal.literalFraction rest with ⟨fraction, tail⟩
    simp only [hf] at h
    split at h
    · simp at h
    · rename_i hne
      obtain ⟨m, hm, rfl⟩ := Option.map_eq_some_iff.1 h
      obtain ⟨n, hn, ⟨⟩⟩ := Option.bind_eq_some_iff.1 hm
      have htail := literalExponent?_eq_some_iff.1 hn
      obtain ⟨rfl, rfl⟩ | ⟨rfl, hfraction⟩ := literalFraction_spec hf
      · exact ⟨whole, whole, [], rest, n, hsplit.symm, .whole (by simpa using hne) hwhole, htail,
          rfl⟩
      · by_cases hw : whole = []
        · subst hw
          exact ⟨'.' :: fraction, [], fraction, tail, n, by simpa using hsplit.symm,
            .fraction (by simpa using hne) hfraction, htail, rfl⟩
        · exact ⟨whole ++ '.' :: fraction, whole, fraction, tail, n, by simpa using hsplit.symm,
            .both hw hwhole hfraction, htail, rfl⟩
  · rintro ⟨mantissa, whole, fraction, tail, n, rfl, hm, htail, rfl⟩
    exact hm.literal?_append htail

/-- A decimal whose leading digit is within a bound that can be held can be held. -/
theorem fits_of_magnitude_le {c : Nat} {e bound : Int} (s : Bool)
    (hbound : bound ≤ Decimal.largestExponent)
    (h : (Decimal.magnitude c e).natAbs ≤ bound) : (Decimal.finite s c e).fits :=
  decide_eq_true (Int.le_trans Int.le_natAbs (Int.le_trans h hbound))

/-- **The numbers of a dialect are the literals of the grammar.** -/
theorem number_eq_ok_iff {dialect : Dialect} {word : List Char} {d : Decimal}
    (hstrict : dialect.strict → ∀ c ∈ word, c.isDigit) :
    Reader.number dialect.maxLiteralExponent word = .ok d ↔ Literal dialect word d := by
  constructor
  · intro h
    rw [Reader.number] at h
    split at h
    · simp at h
    · rename_i d' hd
      obtain ⟨mantissa, whole, fraction, tail, n, rfl, hm, htail, rfl⟩ := literal?_eq_some_iff.1 hd
      split at h
      · simp at h
      · rename_i hfits
        simp only [Decimal.ofParts] at h hfits
        split at h
        · simp at h
        · rename_i hbound
          obtain rfl := Except.ok.inj h
          rw [not_or, Int.not_lt, Int.not_lt] at hbound
          exact .intro hm htail rfl rfl hstrict hbound.1 hbound.2 (by simpa using hfits)
  · rintro ⟨hm, htail, rfl, rfl, -, hmagnitude, hexponent, hfits⟩
    rename_i mantissa whole fraction tail n
    have hfits' : (Decimal.ofParts whole fraction n).fits = true := hfits
    rw [Reader.number]
    rw [hm.literal?_append htail]
    dsimp only
    rw [hfits']
    simp only [Decimal.ofParts]
    rw [if_neg (by decide), if_neg]
    rw [not_or, Int.not_lt, Int.not_lt]
    exact ⟨hmagnitude, hexponent⟩

end Formula.Grammar
