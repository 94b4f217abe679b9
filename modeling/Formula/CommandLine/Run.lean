import Formula.CommandLine.Health
import Formula.CommandLine.Help
import Formula.Log.Setup
import Formula.Shell

/-!
# Running the program

A run begins with the command line.  It may be over before any input is read: with the help, the
version, the health check, the answer to a given expression, or an error of usage.  Otherwise the
interactive shell takes over.

* `start` — the beginning of a run, up to the end or to the shell.  The log is set up as soon as the
  arguments are known to be right, so that everything that follows can be logged; the sign of the
  scale is looked at only after that.
* `run` — a whole run on given lines of input, as a `Transcript`: the exit status and all that was
  written.  Records of the log are written without their times.
-/

set_option autoImplicit false

namespace Formula.CommandLine

open Log

/-! ## Beginnings -/

/-- Why the program cannot be run. -/
inductive Fault
  /-- The settings ask for a log level that is none. -/
  | level (e : Reserved)
  /-- The settings have a default scale that is none. -/
  | scale (e : Calculator.InvalidScale)
  | escape (e : Calculator.Escape)

/-- The wording of a fault. -/
def Fault.message : Fault → String
  | level e => e.message
  | scale e => e.message
  | escape e => e.message

/-- The log of a run: the severity from which on records are kept, and its file, if it has one. -/
structure Journal where
  threshold : Level
  file : Option String
deriving DecidableEq

/-- How a run goes on. -/
inductive Next
  /-- It is over, with an exit status. -/
  | exit (status : Nat)
  | shell (sh : Shell)

/-- The beginning of a run. -/
structure Start where
  /-- The log, if it was set up. -/
  journal : Option Journal
  records : List Record := []
  /-- The lines on the standard output. -/
  output : List String := []
  /-- The lines on the standard error stream, the log apart. -/
  errors : List String := []
  next : Next

namespace Start

/-- A run that is over without a log. -/
def unlogged (status : Nat) (output errors : List String) : Start :=
  { journal := none, output := output, errors := errors, next := .exit status }

/-- A run that ends with an error of usage. -/
def refuse (e : UsageError) : Start := unlogged 2 [] (errorLines e)

end Start

/-- The expression that is meant: the prompt of the shell may stand before it. -/
def expressionOf (text : String) : String :=
  let cs := Text.strip text.toList
  match cs with
  | '>' :: '>' :: '>' :: rest => String.ofList (Text.strip rest)
  | _ => String.ofList cs

/-- The record about a new calculator. -/
def readyRecord (c : Calculator) : Record :=
  .debug "cli"
    s!"calculator ready (scale={Digits.natText c.scale}, strict={Value.boolText c.dialect.strict})"

/-- The log that the arguments ask for. -/
def journalOf (a : Arguments) : Except Reserved Journal := do
  let file := a.logFile.filter (· ≠ "")
  return ⟨(← configure a.logLevel file.isSome).threshold, file⟩

/-- Begins with a calculator: with the answer to an expression, or with the shell. -/
def startWith (a : Arguments) (journal : Journal) (c : Calculator) :
    Except Calculator.Escape Start :=
  match a.expression with
  | none =>
    .ok { journal := journal, records := [readyRecord c], next := .shell ⟨c, a.json, a.tree⟩ }
  | some text =>
    let answered := c.evaluate (some (expressionOf text))
    answered.value.map fun answer ↦
      { journal := journal
        records := readyRecord c :: answered.records
        output := Shell.answerLines a.json a.tree answer
        next := .exit (if answer.ok then 0 else 1) }

/-- Begins with the health check. -/
def startHealth (settings : Settings) (host : Host) (journal : Journal) :
    Except Calculator.Escape Start :=
  let checked := health settings host
  checked.value.map fun h ↦
    { journal := journal
      records := checked.records
      output := h.lines
      next := .exit (if h.passed then 0 else 1) }

/-- Begins with arguments that are right. -/
def startArguments (settings : Settings) (host : Host) (a : Arguments) :
    Except Fault Start := do
  let journal ← (journalOf a).mapError Fault.level
  if a.version then
    return { journal := journal, output := [Settings.version], next := .exit 0 }
  else if a.healthCheck then
    (startHealth settings host journal).mapError Fault.escape
  else if a.scale.any (· < 0) then
    return { Start.refuse .negativeScale with journal := journal }
  else
    let scale : Value := match a.scale with
      | some n => .integer n
      | none => .null
    let c ← (Calculator.standard settings host scale a.strict).mapError Fault.scale
    (startWith a journal c).mapError Fault.escape

/-- The beginning of a run. -/
def start (settings : Settings) (host : Host) (arguments : List String) :
    Except Fault Start :=
  match read host.maxDigits (Text.upperLevel settings.logLevel) arguments with
  | .error e => .ok (.refuse e)
  | .ok .help => .ok (.unlogged 0 (helpLines settings.defaultScale) [])
  | .ok (.arguments a) => startArguments settings host a

/-! ## Whole runs -/

/-- The log of a run as text, without the times. -/
def Journal.text (j : Journal) (records : List Record) : String :=
  Shell.printed ((records.filter (·.passes j.threshold)).map Record.line)

/-- All that a run writes. -/
structure Transcript where
  status : Nat
  output : String
  errors : String
  /-- The file of the log and what was written to it. -/
  log : Option (String × String)
deriving DecidableEq

/-- The transcript of a run that began in a given way and went on to an end. -/
def Start.transcript (s : Start) (status : Nat) (output : String) (records : List Record) :
    Transcript :=
  let text := match s.journal with
    | some j => j.text (s.records ++ records)
    | none => ""
  { status := status
    output := Shell.printed s.output ++ output
    errors := Shell.printed s.errors ++ text
    log := (s.journal.bind Journal.file).map fun file ↦ (file, text) }

/-- A whole run.  An interruption of the input is a missing line. -/
def run (settings : Settings) (host : Host) (arguments : List String)
    (input : List (Option String)) : Except Fault Transcript := do
  let s ← start settings host arguments
  match s.next with
  | .exit status => return s.transcript status "" []
  | .shell sh =>
    let session := sh.transcript input
    return s.transcript 0 (← session.value.mapError (.escape ∘ Shell.Crash.escape)) session.records

end Formula.CommandLine
