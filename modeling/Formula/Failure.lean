/-!
# Why an evaluation fails

A well-formed expression can still have no value.  `Failure` lists the causes, those of the
arithmetic itself and those that a registered function may add, and leaves the wording to
`Failure.message`.

The causes fall into four kinds (`Failure.Kind`), and the kind decides who is told.

* `evaluation` — the causes that belong to the language of the calculator.  They have a `code` for
  programs, and a message that starts with `#` is an error token, shown to the user as it stands.
* `arithmetic` and `value` — the causes that the arithmetic of decimals or of floating-point numbers
  reports of itself.  They reach the user as `#ERROR(message)`.
* `unexpected` — anything else that a registered function lets happen.  It reaches the user in the
  same form, and the log as a warning besides.

A message is a text that can be shown, except for that of an error which a registered function
raises: it may be no text, or asking for the text may end in another error.  Such a failure has no
message (`Failure.unshowable`), and whoever wants to show it fails in turn.

`Fault` is an error reduced to what a caller may look at: its message, a text, and its code.
-/

set_option autoImplicit false

namespace Formula

/-! ## Faults -/

/-- What a caller sees of an error of the calculator: a message for people, a code for programs. -/
structure Fault where
  message : String
  code : String
deriving DecidableEq

/-- The code of a fault in an evaluation that gives no code of its own. -/
def Fault.evaluationCode : String := "EVALUATION_ERROR"

/-- Is a message an error token, to be shown as it stands? -/
def isTokenMessage (message : String) : Bool := message.toList.head? = some '#'

/-! ## Causes -/

/-- What can go wrong in floating-point arithmetic. -/
inductive MathFault
  /-- No real number is the result. -/
  | domain
  /-- The result is beyond the largest floating-point number. -/
  | range
  /-- The result is not a number, or is infinite. -/
  | notFinite
deriving DecidableEq

/-- Who is told of a failure. -/
inductive Failure.Kind
  | evaluation
  | arithmetic
  | value
  | unexpected
deriving DecidableEq

/-- Why an evaluation fails. -/
inductive Failure
  /-- Division by zero, or a negative power of zero. -/
  | divisionByZero
  /-- The floating-point part of the arithmetic has no result. -/
  | math (cause : MathFault)
  /-- The number of places to round to is not a whole number, or is out of bounds. -/
  | precision
  /-- A registered function returned something that is not a number. -/
  | result (function kind : String)
  /-- A registered function reports an error of its own. -/
  | raised (fault : Fault)
  /-- An infinity meets an operation that has no result for it. -/
  | invalidOperation
  /-- A quotient with an infinity. -/
  | ratioOfInfinity
  /-- A quotient with a decimal that is not a number. -/
  | ratioOfNaN
  /-- The sine of an infinity. -/
  | sineOfInfinity
  /-- The size of a power is asked of a base that is not finite. -/
  | sizeOfNonFinite
  /-- A registered function divides by zero outside the arithmetic of decimals. -/
  | zeroDivisor
  /-- A registered function refuses a value. -/
  | value (message : String)
  /-- A registered function ends in any other way. -/
  | abrupt (kind message : String)
  /-- A registered function raises an error that cannot be shown: its message is no text, or cannot
  be turned into one.  Whoever tries ends in an error of the class `escape`. -/
  | unshowable (kind : Failure.Kind) (escape : String)
deriving DecidableEq

namespace Failure

/-- The kind of a failure. -/
def kind : Failure → Kind
  | divisionByZero | math _ | precision | result .. | raised _ => .evaluation
  | invalidOperation | ratioOfInfinity | zeroDivisor => .arithmetic
  | ratioOfNaN | sineOfInfinity | value _ => .value
  | sizeOfNonFinite | abrupt .. => .unexpected
  | unshowable kind _ => kind

end Failure

/-- The wording of a floating-point fault. -/
def MathFault.message : MathFault → String
  | domain => "math domain error"
  | range => "math range error"
  | notFinite => "Infinite or NaN"

namespace Failure

/-- The error token of a division by zero. -/
def divisionToken : String := "#DIV0"

/-- The wording of a failure, or the class of the error in which asking for it ends. -/
def message : Failure → Except String String
  | divisionByZero => .ok divisionToken
  | math cause => .ok cause.message
  | precision => .ok "Invalid rounding precision"
  | result function kind => .ok s!"Function {function} returned {kind}"
  | raised fault => .ok fault.message
  | invalidOperation => .ok "[<class 'decimal.InvalidOperation'>]"
  | ratioOfInfinity => .ok "cannot convert Infinity to integer ratio"
  | ratioOfNaN => .ok "cannot convert NaN to integer ratio"
  | sineOfInfinity => .ok MathFault.domain.message
  | sizeOfNonFinite => .ok "bad operand type for abs(): 'str'"
  | zeroDivisor => .ok "division by zero"
  | value message => .ok message
  | abrupt _ message => .ok message
  | unshowable _ escape => .error escape

/-- The code of a failure; only the errors of the calculator itself that can be shown have one. -/
def code? : Failure → Option String
  | divisionByZero => some "DIV0"
  | math _ => some "MATH_ERROR"
  | precision => some "INVALID_PRECISION"
  | result .. => some "INVALID_RESULT"
  | raised fault => some fault.code
  | _ => none

end Failure

end Formula
