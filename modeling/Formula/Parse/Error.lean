import Formula.Function.Declaration
import Formula.Token

/-!
# What can be wrong with an expression

`ParseError` lists the ways in which a text fails to be an expression.  Each has a code for programs
and a wording for people; positions count characters from zero.

A reader that has read part of a text has one of two kinds of complaint.  `empty`,
`trailingOperator` and `missingClosing` say that something is still to come; all others but
`tooLong` say that what has been read cannot be continued.
-/

set_option autoImplicit false

namespace Formula

/-- Why a text is not an expression. -/
inductive ParseError
  /-- The text has more characters than allowed. -/
  | tooLong (limit : Int)
  /-- Groups and calls are nested more deeply than allowed. -/
  | tooDeep (limit : Int)
  /-- Groups and calls are nested more deeply than the host has room for. -/
  | tooDeepToFollow
  /-- A word where an operator has to stand. -/
  | unexpectedWord (token : Token)
  /-- A symbol where an operand has to stand. -/
  | unexpectedSymbol (token : Token)
  /-- A symbol that is not an operator where an operator has to stand. -/
  | invalidOperator (symbol : List Char)
  /-- A word that begins like a number and is none. -/
  | invalidNumber (word : List Char)
  /-- A number whose exponent is out of bounds. -/
  | numberOutOfRange (word : List Char)
  | unknownFunction (name : List Char)
  /-- The name of a function that no parenthesis follows. -/
  | missingOpening (function : String)
  | missingClosing
  /-- A call with too few or too many arguments. -/
  | arityMismatch (function : String) (arity : Arity)
  /-- No operand at all. -/
  | empty
  /-- No operand after the last operator. -/
  | trailingOperator
deriving DecidableEq

namespace ParseError

/-- The code of an error. -/
def code : ParseError → String
  | tooLong _ => "TOO_LONG"
  | tooDeep _ | tooDeepToFollow => "TOO_DEEP"
  | unexpectedWord _ | unexpectedSymbol _ => "UNEXPECTED_TOKEN"
  | invalidOperator _ => "INVALID_OPERATOR"
  | invalidNumber _ | numberOutOfRange _ => "INVALID_NUMBER"
  | unknownFunction _ => "UNKNOWN_FUNCTION"
  | missingOpening _ | missingClosing => "MISSING_PARENTHESIS"
  | arityMismatch .. => "ARITY_MISMATCH"
  | empty => "EMPTY"
  | trailingOperator => "TRAILING_OPERATOR"

/-- A text of the input between quotation marks. -/
private def quote (cs : List Char) : String := String.ofList (Text.quoted cs)

/-- The wording of an error. -/
def message : ParseError → String
  | tooLong limit => s!"Input too long (max {Digits.intText limit} characters)"
  | tooDeep limit => s!"Expression too deeply nested (>{Digits.intText limit} levels)"
  | tooDeepToFollow => "Expression too deeply nested"
  | unexpectedWord token =>
    s!"Expected number, but received {token.shown} at position {Digits.natText token.position}"
  | unexpectedSymbol token =>
    s!"Unexpected symbol {token.shown} at position {Digits.natText token.position}"
  | invalidOperator symbol => s!"Invalid operator {quote symbol}"
  | invalidNumber word => s!"Invalid number {quote word}"
  | numberOutOfRange word => s!"Number out of range {quote word}"
  | unknownFunction name => s!"Unknown function {quote name}"
  | missingOpening function => s!"Missing opening parenthesis after {function}"
  | missingClosing => "Missing closing parenthesis"
  | arityMismatch function arity => s!"{function} expects {arity.shown} argument(s)"
  | empty => "Empty expression"
  | trailingOperator => "Expression ends with an operator"

/-- What a caller sees of the error. -/
def fault (e : ParseError) : Fault := ⟨e.message, e.code⟩

end ParseError

/-- The operator that a symbol stands for. -/
def Operator.ofSymbol (symbol : List Char) : Except ParseError Operator :=
  match symbol with
  | [c] => match Operator.ofSymbol? c with
    | some op => .ok op
    | none => .error (.invalidOperator symbol)
  | _ => .error (.invalidOperator symbol)

end Formula
