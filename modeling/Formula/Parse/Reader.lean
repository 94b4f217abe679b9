import Formula.Decimal.Literal
import Formula.Function.Registry
import Formula.Host
import Formula.Parse.Error

/-!
# Reading an expression token by token

The reader takes one token at a time and keeps what it has read so far in a `Reader.State`, so a
reading can be stopped after any token, and what comes later has no influence on it
(`Reader.run_append`).

A state consists of the chain that is being read and of the chains around it, innermost first.

* `Place` says where the innermost chain stands: before an operand, with the sign that the operand
  will have; after an operand; or after the name of a function, whose parenthesis has to follow.
* `Level` is a chain that waits for a group or a call inside it to be closed, and says which of the
  two it is.

A word or an opening parenthesis is only taken before an operand, and an operator, a comma or a
closing parenthesis only after one.  Signs before an operand add up; a number takes the sign into
its value, and a group or a call with an odd number of minus signs is negated.

Each group and each argument that is closed is noted (`State.closings`), for the log; a reading that
stops says what it had closed until then (`Stop`).
-/

set_option autoImplicit false

namespace Formula

/-- What a reader accepts besides the grammar itself. -/
structure Dialect where
  /-- Only unsigned whole numbers, parentheses and operators. -/
  strict : Bool
  /-- The number of levels that groups and calls may be nested. -/
  maxDepth : Int
  /-- The number of characters that an expression may have. -/
  maxLength : Int
  /-- The bound for the exponents of number literals. -/
  maxLiteralExponent : Int

namespace Reader

/-! ## Chains under construction -/

/-- The part of a chain that has been read, in reverse: each operand with the operator after it. -/
abbrev Before := List (Expr × Operator)

/-- Where the chain that is being read stands. -/
inductive Place
  /-- Before an operand, with the sign that it will have. -/
  | operand (before : Before) (negative : Bool)
  /-- After an operand. -/
  | operator (before : Before) (last : Expr)
  /-- After the name of a function, whose opening parenthesis has to follow. -/
  | opening (before : Before) (negative : Bool) (function : Declaration)

/-- What an opening parenthesis has opened. -/
inductive Opening
  | group
  /-- A call, with the arguments that have been read, in reverse. -/
  | call (function : Declaration) (arguments : List Expr)

/-- A chain that waits for a group or a call to be closed, and the sign that this will have. -/
structure Level where
  before : Before
  negative : Bool
  opening : Opening

/-- What the reader is inside of on this level. -/
def Level.bracket (level : Level) : Bracket :=
  match level.opening with
  | .group => .group
  | .call .. => .call

/-- The links of a chain whose last operand is `last`, given the part before it in reverse. -/
def links : Before → Expr → List (Operator × Expr) → Expr × List (Operator × Expr)
  | [], last, acc => (last, acc)
  | (e, op) :: before, last, acc => links before e ((op, last) :: acc)

/-- The chain that ends with the operand `last`. -/
def close (before : Before) (last : Expr) : Expr :=
  let (head, rest) := links before last []
  .chain false head rest

/-- An argument of a call: a single operand needs no chain around it. -/
def argument (before : Before) (last : Expr) : Expr :=
  match before with
  | [] => last
  | _ => close before last

/-- An operand with its sign. -/
def withSign (negative : Bool) (e : Expr) : Expr := if negative then e.negated else e

/-- What the reader is inside of, innermost first. -/
def brackets (outer : List Level) : List Bracket := outer.map Level.bracket

@[simp]
theorem length_brackets (outer : List Level) : (brackets outer).length = outer.length :=
  List.length_map _

/-! ## States -/

/-- What has been read of an expression. -/
structure State where
  place : Place
  outer : List Level
  /-- The characters that closed the groups and arguments so far, in reverse. -/
  closings : List Char

/-- Why a reading stops. -/
inductive Cause
  | rejected (error : ParseError)
  /-- The arity of a function cannot be counted to. -/
  | uncounted (function : String)

/-- The end of a reading that fails. -/
structure Stop where
  closings : List Char
  cause : Cause

/-- The state before the first token. -/
def start : State := ⟨.operand [] false, [], []⟩

/-- Everything a reader has to know. -/
structure Context where
  dialect : Dialect
  functions : Registry
  host : Host

variable (ctx : Context)

/-- The state with a complaint about the token that was read last. -/
def State.reject (s : State) (e : ParseError) : Except Stop State :=
  .error ⟨s.closings, .rejected e⟩

/-- The decimal that a word denotes. -/
def number (maxExponent : Int) (word : List Char) : Except ParseError Decimal :=
  match Decimal.literal? word with
  | none => .error (.invalidNumber word)
  | some d =>
    if !d.fits then .error (.invalidNumber word)
    else match d with
      | .finite _ c e =>
        if maxExponent < (Decimal.magnitude c e).natAbs ∨ maxExponent < e.natAbs then
          .error (.numberOutOfRange word)
        else .ok d
      | _ => .ok d

/-- The state inside a parenthesis that has just been opened. -/
def State.enter (s : State) (level : Level) : Except Stop State :=
  let outer := level :: s.outer
  if ctx.dialect.maxDepth < outer.length then s.reject (.tooDeep ctx.dialect.maxDepth)
  else if !ctx.host.canFollow (brackets outer) then s.reject .tooDeepToFollow
  else .ok { s with place := .operand [] false, outer := outer }

/-- A token before an operand. -/
def State.readOperand (s : State) (before : Before) (negative : Bool) (t : Token) :
    Except Stop State :=
  match t.lexeme with
  | .number word =>
    match number ctx.dialect.maxLiteralExponent word with
    | .ok d =>
      .ok { s with place := .operator before (.const (if negative then d.negate else d)) }
    | .error e => s.reject e
  | .name word =>
    match ctx.functions.lookup? (String.ofList word) with
    | some f => .ok { s with place := .opening before negative f }
    | none => s.reject (.unknownFunction word)
  | .symbol c =>
    if c = '(' then s.enter ctx ⟨before, negative, .group⟩
    else if c = '+' ∧ !ctx.dialect.strict then .ok { s with place := .operand before negative }
    else if c = '-' ∧ !ctx.dialect.strict then .ok { s with place := .operand before (!negative) }
    else s.reject (.unexpectedSymbol t)
  | .finish => s.reject (.unexpectedSymbol t)

/-- The end of an argument of a call: the next argument follows a comma, and a closing parenthesis
ends the call.  Which of the two has to stand here is a matter of the arity. -/
def State.closeArgument (s : State) (level : Level) (outer : List Level) (f : Declaration)
    (arguments : List Expr) (c : Char) : Except Stop State :=
  if f.arity.count ≤ arguments.length then
    if c = ')' then
      let call := withSign level.negative (f.call arguments.reverse)
      .ok { s with place := .operator level.before call, outer := outer }
    else s.reject (.arityMismatch f.name f.arity)
  else
    if c = ',' then
      let level := { level with opening := .call f arguments }
      .ok { s with place := .operand [] false, outer := level :: outer }
    else s.reject (.arityMismatch f.name f.arity)

/-- A symbol after an operand that closes nothing: it has to be an operator. -/
def State.readLink (s : State) (before : Before) (last : Expr) (c : Char) : Except Stop State :=
  match Operator.ofSymbol? c with
  | some op => .ok { s with place := .operand ((last, op) :: before) false }
  | none => s.reject (.invalidOperator [c])

/-- A token after an operand. -/
def State.readOperator (s : State) (before : Before) (last : Expr) (t : Token) :
    Except Stop State :=
  match t.lexeme with
  | .number _ => s.reject (.unexpectedWord t)
  | .name _ => s.reject (.unexpectedWord t)
  | .finish => s.reject (.unexpectedSymbol t)
  | .symbol c =>
    match s.outer with
    | [] => s.readLink before last c
    | level :: outer =>
      match level.opening with
      | .group =>
        if c = ')' then
          let group := withSign level.negative (close before last)
          .ok ⟨.operator level.before group, outer, c :: s.closings⟩
        else s.readLink before last c
      | .call f arguments =>
        if c = ')' ∨ c = ',' then
          State.closeArgument { s with closings := c :: s.closings } level outer f
            (argument before last :: arguments) c
        else s.readLink before last c

/-- A token after the name of a function. -/
def State.readOpening (s : State) (before : Before) (negative : Bool) (f : Declaration)
    (t : Token) : Except Stop State :=
  if t.lexeme = .symbol '(' then
    if f.arity.isCounted then s.enter ctx ⟨before, negative, .call f []⟩
    else .error ⟨s.closings, .uncounted f.name⟩
  else s.reject (.missingOpening f.name)

/-- One token. -/
def State.read (s : State) (t : Token) : Except Stop State :=
  match s.place with
  | .operand before negative => s.readOperand ctx before negative t
  | .operator before last => s.readOperator before last t
  | .opening before negative f => s.readOpening ctx before negative f t

/-- The end of the text. -/
def State.finish (s : State) : Except Stop Expr :=
  let reject (e : ParseError) : Except Stop Expr := .error ⟨s.closings, .rejected e⟩
  match s.place, s.outer with
  | .opening _ _ f, _ => reject (.missingOpening f.name)
  | _, _ :: _ => reject .missingClosing
  | .operand [] _, [] => reject .empty
  | .operand (_ :: _) _, [] => reject .trailingOperator
  | .operator before last, [] => .ok (close before last)

/-! ## Readings -/

/-- The state after a list of tokens. -/
def run (s : State) (ts : List Token) : Except Stop State := ts.foldlM (State.read ctx) s

theorem run_cons (s : State) (t : Token) (ts : List Token) :
    run ctx s (t :: ts) = (s.read ctx t).bind fun s' ↦ run ctx s' ts := rfl

/-- What comes later has no influence on what has been read. -/
theorem run_append (s : State) (ts us : List Token) :
    run ctx s (ts ++ us) = (run ctx s ts).bind fun s' ↦ run ctx s' us := by
  simp only [run, List.foldlM_append]
  rfl

end Reader

end Formula
