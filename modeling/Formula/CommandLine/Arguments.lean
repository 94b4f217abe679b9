import Formula.CommandLine.Switch
import Formula.Digits
import Formula.Text.Integer
import Formula.Text.Quoted

/-!
# Reading the command line

The arguments are read in two passes.  The first decides what each argument is (`marks`); it stops
at the first ambiguous one, and everything behind `--` is an operand.  The second goes through the
arguments from left to right and lets each option act (`read`): it records its value, or asks for
the help, which ends the reading.

An option that takes a value has it in the same argument or in the next, which must be an operand
then.  Short options without a value may share an argument (`expand`).  The program takes no
operands, so the ones that are left over are reported at the end, together with the unknown options.
-/

set_option autoImplicit false

namespace Formula.CommandLine

/-! ## The outcome -/

/-- What the command line asks for. -/
structure Arguments where
  expression : Option String := none
  json : Bool := false
  scale : Option Int := none
  strict : Bool := false
  tree : Bool := false
  version : Bool := false
  logLevel : String
  logFile : Option String := none
  healthCheck : Bool := false
deriving DecidableEq

/-- What is wrong with the command line. -/
inductive UsageError
  | ambiguous (argument : String) (candidates : List String)
  /-- An option without the value that it takes. -/
  | missingValue (switch : Switch)
  /-- An option with a value that it does not take. -/
  | ignoredValue (switch : Switch) (value : List Char)
  | invalidNumber (switch : Switch) (value : String)
  | invalidChoice (switch : Switch) (value : String) (choices : List String)
  | unrecognized (arguments : List String)
  | negativeScale
deriving DecidableEq

namespace UsageError

/-- The wording of an error of one option. -/
def about (switch : Switch) (text : String) : String := s!"argument {switch.name}: {text}"

/-- The wording of an error. -/
def message : UsageError → String
  | ambiguous argument candidates =>
    s!"ambiguous option: {argument} could match " ++ ", ".intercalate candidates
  | missingValue switch => about switch "expected one argument"
  | ignoredValue switch value =>
    about switch ("ignored explicit argument " ++ String.ofList (Text.quoted value))
  | invalidNumber switch value =>
    about switch s!"invalid int value: {Text.quotedString value}"
  | invalidChoice switch value choices =>
    let listed := ", ".intercalate (choices.map Text.quotedString)
    about switch s!"invalid choice: {Text.quotedString value} (choose from {listed})"
  | unrecognized arguments => "unrecognized arguments: " ++ " ".intercalate arguments
  | negativeScale => "--scale must be a non-negative integer"

end UsageError

/-- How the reading of a command line ends. -/
inductive Outcome
  /-- The help is asked for. -/
  | help
  | arguments (a : Arguments)
deriving DecidableEq

/-! ## The first pass -/

/-- An argument and what it is.  Nothing is said about the argument `--`, which separates options
from operands. -/
abbrev Marked := String × Option Shape

/-- What each argument is. -/
def marks : List String → Except UsageError (List Marked)
  | [] => .ok []
  | argument :: rest =>
    if argument = "--" then .ok ((argument, none) :: rest.map fun a ↦ (a, some .operand))
    else match Shape.ofArgument argument with
      | .error e => .error (.ambiguous e.argument e.candidates)
      | .ok shape => do return (argument, some shape) :: (← marks rest)

/-! ## The second pass -/

/-- An option with its value, if it takes one. -/
abbrev Action := Switch × Option String

/-- What an argument with options asks for. -/
structure Expansion where
  actions : List Action
  /-- The option that takes the next argument as its value. -/
  awaiting : Option Switch
  /-- The part of the argument that is no option. -/
  leftover : Option String

/-- Adds an action in front of an expansion. -/
def Expansion.after (action : Action) (e : Expansion) : Expansion :=
  { e with actions := action :: e.actions }

/-- What stands behind a short option that shares its argument with the one before it. -/
def attachedTo : List Char → Attached
  | [] => .nothing
  | '=' :: value => .assigned value
  | cs => .glued cs

/-- The expansion of the letters behind a short option without a value. -/
def expandGlued (switch : Switch) : List Char → Except UsageError Expansion
  | [] => .error (.ignoredValue switch [])
  | c :: rest =>
    if c = '-' then .error (.ignoredValue switch (c :: rest))
    else match spellings.lookup (String.ofList ['-', c]) with
      | none => .ok ⟨[(switch, none)], none, some (String.ofList ('-' :: c :: rest))⟩
      | some next =>
        match attachedTo rest with
        | .nothing =>
          if next.takesValue then .ok ⟨[(switch, none)], some next, none⟩
          else .ok ⟨[(switch, none), (next, none)], none, none⟩
        | .assigned value =>
          if next.takesValue then
            .ok ⟨[(switch, none), (next, some (String.ofList value))], none, none⟩
          else .error (.ignoredValue next value)
        | .glued more =>
          if next.takesValue then
            .ok ⟨[(switch, none), (next, some (String.ofList more))], none, none⟩
          else (expandGlued next rest).map (Expansion.after (switch, none))

/-- The expansion of an argument that spells an option. -/
def expand (switch : Switch) (spelling : String) (attached : Attached) :
    Except UsageError Expansion :=
  match attached with
  | .nothing =>
    if switch.takesValue then .ok ⟨[], some switch, none⟩ else .ok ⟨[(switch, none)], none, none⟩
  | .assigned value =>
    if switch.takesValue then .ok ⟨[(switch, some (String.ofList value))], none, none⟩
    else .error (.ignoredValue switch value)
  | .glued value =>
    if switch.takesValue then .ok ⟨[(switch, some (String.ofList value))], none, none⟩
    else if spelling.length = 2 then expandGlued switch value
    else .error (.ignoredValue switch value)

/-- The values that the option for the output format takes. -/
def formats : List String := ["json", "human"]

/-- The values that the option for the log level takes. -/
def logLevels : List String := ["DEBUG", "INFO", "WARNING", "ERROR"]

/-- One of the values that an option takes. -/
def choice (switch : Switch) (choices : List String) (value : String) :
    Except UsageError String :=
  if value ∈ choices then .ok value else .error (.invalidChoice switch value choices)

/-- Lets an option act. -/
def act (maxDigits : Option Nat) (a : Arguments) (action : Action) : Except UsageError Outcome :=
  let value := action.2.getD ""
  match action.1 with
  | .help => .ok .help
  | .expression => .ok (.arguments { a with expression := some value })
  | .format => do
    return .arguments { a with json := (← choice .format formats value) = "json" }
  | .scale =>
    match Text.readInt? maxDigits value.toList with
    | some n => .ok (.arguments { a with scale := some n })
    | none => .error (.invalidNumber .scale value)
  | .strict => .ok (.arguments { a with strict := true })
  | .tree => .ok (.arguments { a with tree := true })
  | .version => .ok (.arguments { a with version := true })
  | .logLevel => do return .arguments { a with logLevel := ← choice .logLevel logLevels value }
  | .logFile => .ok (.arguments { a with logFile := some value })
  | .healthCheck => .ok (.arguments { a with healthCheck := true })

/-- Lets a list of options act. -/
def actAll (maxDigits : Option Nat) (a : Arguments) : List Action → Except UsageError Outcome
  | [] => .ok (.arguments a)
  | action :: rest => do
    match ← act maxDigits a action with
    | .help => return .help
    | .arguments a => actAll maxDigits a rest

/-- The end of a reading: nothing may be left over. -/
def conclude (a : Arguments) (extras : List String) : Except UsageError Outcome :=
  if extras.isEmpty then .ok (.arguments a) else .error (.unrecognized extras.reverse)

/-- Goes through the arguments.  The ones that are left over are kept in reverse. -/
def consume (maxDigits : Option Nat) (a : Arguments) (extras : List String) :
    List Marked → Except UsageError Outcome
  | [] => conclude a extras
  | (_, some (.option switch spelling attached)) :: rest => do
    let e ← expand switch spelling attached
    let extras := e.leftover.toList ++ extras
    match e.awaiting with
    | none =>
      match ← actAll maxDigits a e.actions with
      | .help => return .help
      | .arguments a => consume maxDigits a extras rest
    | some taker =>
      match rest with
      | (value, some .operand) :: rest =>
        match ← actAll maxDigits a (e.actions ++ [(taker, some value)]) with
        | .help => return .help
        | .arguments a => consume maxDigits a extras rest
      | _ => .error (.missingValue taker)
  | (argument, _) :: rest => consume maxDigits a (argument :: extras) rest

/-- The arguments of a command line, where numbers have at most `maxDigits` digits.  `logLevel` is
the level that is logged without the option. -/
def read (maxDigits : Option Nat) (logLevel : String) (arguments : List String) :
    Except UsageError Outcome := do
  consume maxDigits { logLevel := logLevel } [] (← marks arguments)

end Formula.CommandLine
