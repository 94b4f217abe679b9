import Formula.Calculator

/-!
# The interactive shell

The shell reads one line after the other and answers each.  A line is an expression, or one of the
commands `help`, `functions`, `scale`, `tree`, `quit` and `exit`; blanks at its ends do not count.

* `Command.ofLine?` — a command is known by its first word, up to the first space and without regard
  to letter case.  What follows is its argument; `tree` without an argument is no command.
* `respond` — the lines that the shell prints in response, and the shell as it is afterwards; there
  is none after `quit` or `exit` alone on a line.
* `transcript` — everything that is printed in a session, prompts included.  The lines of the input
  end with the end of the input, or with an interruption.  A line that the calculator leaves without
  an answer breaks the session off (`Crash`).

The scale of the calculator is all that a session can change.
-/

set_option autoImplicit false

namespace Formula

open Log

/-- An interactive shell. -/
structure Shell where
  calculator : Calculator
  /-- Are answers printed as JSON? -/
  json : Bool
  /-- Are grouped expressions printed with the answers? -/
  showTree : Bool

namespace Shell

/-! ## Texts -/

/-- What the shell prints when it starts. -/
def banner : String := "SheetCalc: type 'help' for commands, 'quit' to exit."

/-- What the shell prints before each line of input. -/
def prompt : String := ">>> "

/-- What the shell prints when it ends. -/
def farewell : String := "Goodbye."

/-- What the shell prints about itself. -/
def helpLines : List String :=
  ["SheetCalc: spreadsheet style calculator",
   "",
   "Enter an expression to evaluate it, for example:",
   "  1 + 2 * 3",
   "  (-20 * 1.8) / 2",
   "  2 ^ 0.5",
   "  IF(1, ROUND(SIN(5), 2), 0)",
   "",
   "Operators:  +  -  *  /  ^   (^ binds tighter than * and /, which bind",
   "            tighter than + and -; equal operators group left to right)",
   "Functions:  SIN(x), IF(condition, then, else), ROUND(value, digits)",
   "",
   "Errors:",
   "  #SYNTAXERROR   the input is not a valid expression",
   "  #DIV0          division by zero",
   "  #ERROR(msg)    any other arithmetic failure",
   "",
   "Commands:",
   "  scale [N]      show or set the number of fractional digits",
   "  tree EXPR      show how EXPR is grouped",
   "  functions      list the available functions",
   "  help           show this text",
   "  quit, exit     leave the calculator"]

/-! ## Commands -/

/-- A line that is not an expression. -/
inductive Command
  | help
  | functions
  /-- Shows the scale, or sets it to the number that a text denotes. -/
  | scale (argument : List Char)
  /-- Shows how an expression is grouped. -/
  | tree (expression : List Char)
  /-- `quit` or `exit` with something after it: nothing happens. -/
  | idle
deriving DecidableEq

namespace Command

/-- The command with a given word and argument. -/
def ofWord? (word : String) (argument : List Char) : Option Command :=
  match word with
  | "help" => some help
  | "functions" => some functions
  | "scale" => some (scale argument)
  | "tree" => if argument.isEmpty then none else some (tree argument)
  | "quit" => some idle
  | "exit" => some idle
  | _ => none

/-- The command that a line gives, if it gives one. -/
def ofLine? (line : List Char) : Option Command :=
  let (word, rest) := line.span (· != ' ')
  ofWord? (String.ofList (word.map Text.lower)) (Text.strip (rest.drop 1))

end Command

/-- Does the line end the session? -/
def isFarewell (line : List Char) : Bool :=
  let word := String.ofList (line.map Text.lower)
  word = "quit" || word = "exit"

/-! ## Responses -/

/-- What the shell prints in response to a line, and the shell afterwards. -/
structure Response where
  lines : List String
  next : Option Shell

/-- The lines of an answer. -/
def answerLines (json showTree : Bool) (a : Answer) : List String :=
  if json then [a.json showTree]
  else
    match showTree, a.tree with
    | true, some tree => ["Tree: " ++ tree, a.output]
    | _, _ => [a.output]

/-- The line about a function. -/
def functionLine (d : Declaration) : String :=
  String.ofList (d.name.toList.map Char.toUpper) ++ s!" ({d.arity.shown} argument(s))"

/-- The response to the command `scale`. -/
def respondScale (sh : Shell) (argument : List Char) : Response :=
  let c := sh.calculator
  if argument.isEmpty then ⟨[s!"Scale: {Digits.natText c.scale}"], some sh⟩
  else
    let refusal : Response :=
      ⟨["Error: invalid scale " ++ String.ofList (Text.quoted argument)], some sh⟩
    match Text.readInt? c.host.maxDigits argument with
    | none => refusal
    | some n => match c.withScale (.integer n) with
      | .error _ => refusal
      | .ok c => ⟨[s!"Scale set to {Digits.natText c.scale}"], some { sh with calculator := c }⟩

/-- The response to the command `tree`. -/
def respondTree (sh : Shell) (expression : List Char) :
    Logged (Except Calculator.Escape Response) :=
  (sh.calculator.parse (some (String.ofList expression))).map fun
    | .ok (some e) => do
      return ⟨[← (sh.calculator.shown e).mapError .exhausted], some sh⟩
    | .ok none => .ok ⟨[""], some sh⟩
    | .error (.rejected e) => .ok ⟨[s!"Error: {e.message}"], some sh⟩
    | .error (.uncounted f) => .error (.uncounted f)
    | .error (.exhausted x) => .error (.exhausted x)

/-- The response to a command. -/
def respondCommand (sh : Shell) : Command → Logged (Except Calculator.Escape Response)
  | .help => .quiet (.ok ⟨helpLines, some sh⟩)
  | .functions =>
    .quiet (.ok ⟨sh.calculator.functions.declarations.map functionLine, some sh⟩)
  | .scale argument => .quiet (.ok (sh.respondScale argument))
  | .tree expression => sh.respondTree expression
  | .idle => .quiet (.ok ⟨[], some sh⟩)

/-- The response to an expression. -/
def respondExpression (sh : Shell) (expression : List Char) :
    Logged (Except Calculator.Escape Response) :=
  (sh.calculator.evaluate (some (String.ofList expression))).map fun evaluated ↦ do
    return ⟨answerLines sh.json sh.showTree (← evaluated), some sh⟩

/-- The response to a line. -/
def respond (sh : Shell) (line : List Char) : Logged (Except Calculator.Escape Response) :=
  let line := Text.strip line
  if line.isEmpty then .quiet (.ok ⟨[], some sh⟩)
  else if isFarewell line then .quiet (.ok ⟨[farewell], none⟩)
  else match Command.ofLine? line with
    | some command => sh.respondCommand command
    | none => sh.respondExpression line

/-! ## Sessions -/

/-- Lines as they are printed. -/
def printed (lines : List String) : String := String.join (lines.map (· ++ "\n"))

/-- What is printed when the input ends or is interrupted. -/
def parting : String := printed ["", farewell]

/-- A session that breaks off: why, and what was printed until then. -/
structure Crash where
  escape : Calculator.Escape
  printed : String
deriving DecidableEq

/-- A text in front of all that is printed. -/
def behind (text : String) : Except Crash String → Except Crash String
  | .ok rest => .ok (text ++ rest)
  | .error crash => .error { crash with printed := text ++ crash.printed }

/-- What is printed from the first prompt on.  An interruption is a missing line. -/
def dialogue (sh : Shell) : List (Option String) → Logged (Except Crash String)
  | [] => .quiet (.ok (prompt ++ parting))
  | none :: _ => .quiet (.ok (prompt ++ parting))
  | some line :: rest =>
    let response := sh.respond line.toList
    match response.value with
    | .error e => ⟨response.records, .error ⟨e, prompt⟩⟩
    | .ok ⟨lines, none⟩ => ⟨response.records, .ok (prompt ++ printed lines)⟩
    | .ok ⟨lines, some next⟩ =>
      let others := dialogue next rest
      ⟨response.records ++ others.records, behind (prompt ++ printed lines) others.value⟩

/-- Everything that is printed in a session. -/
def transcript (sh : Shell) (lines : List (Option String)) : Logged (Except Crash String) :=
  (sh.dialogue lines).map (behind (printed [banner]))

end Shell

end Formula
