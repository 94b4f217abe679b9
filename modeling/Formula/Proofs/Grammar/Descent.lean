import Formula.Proofs.Grammar

/-!
# Reading by recursive descent

The reader of `Formula.Parse.Reader` keeps the chains around the one that it is reading in a list.
The same can be done by calls: a loop goes over the tokens of a chain, calls itself for every group
and for every argument of a call, and hands over the tokens that are left.

Written in that way, reading relies on things that no type ensures.  The loop builds a chain from a
head that is only there if an operand has been found, and links an operand by an operator that is
only there if one has been read; a call is built from arguments that have been counted on the way;
and whoever sees the end of the text must not ask for another token, on any level.  Here, each of
these is a `Fault`, and `parse` ends with it where the thing that is relied on is missing.

* `loop` — from anywhere in a chain to one of the closers of its level, or to the end of the text.
* `term`, `arguments`, `call` — a chain from its beginning, the arguments of a call, and a call.
* `parse` — a whole text.

Every call consumes tokens.  `Parsed` says so in its type, and the recursion ends for that reason.
That there are no faults is proved in `Formula.Proofs.Grammar.Descent.Outcome`.
-/

set_option autoImplicit false

namespace Formula.Descent

open Reader

/-! ## Ways to end -/

/-- What must not happen. -/
inductive Fault
  /-- A token is asked for after the end of the text. -/
  | exhausted
  /-- A chain without a head is built. -/
  | headless
  /-- An operand is linked without an operator before it. -/
  | operatorless
  /-- A call is built with a number of arguments that is not the arity of its function. -/
  | miscounted (mismatch : Declaration.CountMismatch)

/-- The end of a descent that has no result. -/
inductive Halt
  | unreadable (reason : Unreadable)
  | fault (fault : Fault)

/-- The text is rejected. -/
def reject {α : Type} (e : ParseError) : Except Halt α := .error (.unreadable (.rejected e))

/-! ## Chains under construction -/

/-- What a loop over the tokens of a chain has found so far. -/
structure Progress where
  head : Option Expr
  links : List Link
  /-- The operator that was read last. -/
  pending : Option Operator
  /-- The sign of the next operand. -/
  negative : Bool
  /-- An operand has to come next. -/
  awaitsOperand : Bool

/-- A chain that has been read up to a closing symbol, or to the end of the text. -/
structure Chain where
  head : Expr
  links : List Link
  closer : Option Char

namespace Progress

/-- Nothing has been found. -/
def start : Progress := ⟨none, [], none, false, true⟩

/-- One operand more: the first is the head, and any other is linked by the operator before it. -/
def add (v : Progress) (e : Expr) : Except Halt Progress :=
  match v.head with
  | none => .ok { v with head := some e, negative := false, awaitsOperand := false }
  | some _ => match v.pending with
    | none => .error (.fault .operatorless)
    | some op =>
      .ok { v with links := v.links ++ [(op, e)], negative := false, awaitsOperand := false }

/-- The chain that has been found. -/
def chain (v : Progress) (closer : Option Char) : Except Halt Chain :=
  match v.head with
  | none => .error (.fault .headless)
  | some head => .ok ⟨head, v.links, closer⟩

/-- The chain at the end of the text, where it has to end by itself. -/
def finish (v : Progress) (closers : List Char) : Except Halt Chain :=
  if closers ≠ [] then reject .missingClosing
  else if v.head.isNone then reject .empty
  else if v.awaitsOperand then reject .trailingOperator
  else v.chain none

end Progress

/-! ## The descent -/

/-- Something that has been read from a list of tokens, of which less than `n` are left. -/
structure Parsed (α : Type) (n : Nat) where
  value : α
  rest : List Token
  lt : rest.length < n

/-- The same, for a larger number. -/
def Parsed.weaken {α : Type} {n m : Nat} (h : n ≤ m) (p : Parsed α n) : Parsed α m :=
  ⟨p.value, p.rest, Nat.lt_of_lt_of_le p.lt h⟩

theorem Parsed.le_succ {α : Type} {n : Nat} (p : Parsed α n) : p.rest.length ≤ n + 1 :=
  Nat.le_succ_of_le (Nat.le_of_lt p.lt)

theorem Parsed.succ_le {α : Type} {n : Nat} (p : Parsed α n) : p.rest.length + 1 ≤ n + 1 :=
  Nat.le_succ_of_le p.lt

variable (ctx : Context)

/-- The levels that are open, innermost first, are within the limits. -/
def checkDepth (opened : List Bracket) : Except Halt Unit :=
  if ctx.dialect.maxDepth < opened.length then reject (.tooDeep ctx.dialect.maxDepth)
  else if !ctx.host.canFollow opened then reject .tooDeepToFollow
  else .ok ()

mutual

/-- A chain, from anywhere in it to one of the closers, or to the end of the text. -/
def loop (opened : List Bracket) (closers : List Char) (v : Progress) (ts : List Token) :
    Except Halt (Parsed Chain ts.length) :=
  match ts with
  | [] => .error (.fault .exhausted)
  | t :: rest =>
    match t.lexeme with
    | .finish => do return ⟨← v.finish closers, rest, Nat.lt_succ_self _⟩
    | .number word =>
      if v.awaitsOperand then
        match number ctx.dialect.maxLiteralExponent word with
        | .error e => reject e
        | .ok d => do
          let v ← v.add (.const (if v.negative then d.negate else d))
          return (← loop opened closers v rest).weaken (Nat.le_succ _)
      else reject (.unexpectedWord t)
    | .name word =>
      if v.awaitsOperand then
        match ctx.functions.lookup? (String.ofList word) with
        | none => reject (.unknownFunction word)
        | some f => do
          let p ← call (.call :: opened) f rest
          let v ← v.add (withSign v.negative p.value)
          return (← loop opened closers v p.rest).weaken p.le_succ
      else reject (.unexpectedWord t)
    | .symbol c =>
      if !v.awaitsOperand then
        if c ∈ closers then do return ⟨← v.chain (some c), rest, Nat.lt_succ_self _⟩
        else match Operator.ofSymbol [c] with
          | .error e => reject e
          | .ok op => do
            let v := { v with pending := some op, awaitsOperand := true }
            return (← loop opened closers v rest).weaken (Nat.le_succ _)
      else if c = '(' then do
        let p ← term (.group :: opened) [')'] rest
        let v ← v.add (withSign v.negative (.chain false p.value.head p.value.links))
        return (← loop opened closers v p.rest).weaken p.le_succ
      else if (c = '+' ∨ c = '-') ∧ !ctx.dialect.strict then do
        let v := { v with negative := v.negative ^^ (c = '-') }
        return (← loop opened closers v rest).weaken (Nat.le_succ _)
      else reject (.unexpectedSymbol t)
termination_by (ts.length, 0)
decreasing_by
  all_goals first
    | decreasing_tactic
    | exact .left _ _ (Nat.lt_succ_of_lt p.lt)

/-- A chain from its beginning. -/
def term (opened : List Bracket) (closers : List Char) (ts : List Token) :
    Except Halt (Parsed Chain ts.length) := do
  checkDepth ctx opened
  loop opened closers .start ts
termination_by (ts.length, 1)

/-- The arguments of a call that are still to come, given those before them, and then the call. -/
def arguments (opened : List Bracket) (f : Declaration) (given : List Expr) (ts : List Token) :
    Except Halt (Parsed Expr (ts.length + 1)) :=
  if given.length < f.arity.count then do
    let p ← term opened [',', ')'] ts
    if p.value.closer = some (if given.length + 1 = f.arity.count then ')' else ',') then
      let argument := Grammar.argumentOf p.value.head p.value.links
      return (← arguments opened f (given ++ [argument]) p.rest).weaken p.succ_le
    else reject (.arityMismatch f.name f.arity)
  else match f.bind? given with
    | .error mismatch => .error (.fault (.miscounted mismatch))
    | .ok e => .ok ⟨e, ts, Nat.lt_succ_self _⟩
termination_by (ts.length, 2)
decreasing_by
  all_goals first
    | decreasing_tactic
    | exact .left _ _ p.lt

/-- A call, from the parenthesis after the name of the function. -/
def call (opened : List Bracket) (f : Declaration) (ts : List Token) :
    Except Halt (Parsed Expr ts.length) :=
  match ts with
  | [] => .error (.fault .exhausted)
  | t :: rest =>
    if t.lexeme = .symbol '(' then
      if f.arity.isCounted then arguments opened f [] rest
      else .error (.unreadable (.uncounted f.name))
    else reject (.missingOpening f.name)
termination_by (ts.length, 0)

end

/-- The expression of a text, as it is written; nothing if the text has no tokens. -/
def parse (text : String) : Except Halt (Option Expr) :=
  if ctx.dialect.maxLength < text.length then reject (.tooLong ctx.dialect.maxLength)
  else match Token.ofText ctx.dialect.strict text with
    | [] => .error (.fault .exhausted)
    | t :: rest =>
      if t.lexeme = .finish then .ok none
      else do
        let p ← term ctx [] [] (t :: rest)
        return some (.chain false p.value.head p.value.links)

end Formula.Descent
