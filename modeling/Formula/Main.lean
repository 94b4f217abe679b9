import Formula.CommandLine.Run
import Formula.Log.Report
import Std.Time.DateTime.Timestamp

/-!
# The program

What `Formula.CommandLine.start` and `Formula.Shell.respond` decide is carried out here: the
environment and the lines of the input are read, output is written, and every record that is kept
becomes an entry of the log, with the time at which it is written.
-/

set_option autoImplicit false

namespace Formula.Program

open Log CommandLine

/-- The settings of the environment in which the program runs. -/
def readSettings : IO (Except Text.IntegerFault Settings) := do
  let values ← Settings.variableNames.mapM fun name ↦ do return (name, ← IO.getEnv name)
  return Settings.read Host.native.maxDigits fun name ↦ (values.lookup name).join

/-- A log that is being written. -/
structure Writer where
  journal : Journal
  file : Option IO.FS.Handle

/-- The log of a run, whose file is created if it does not exist. -/
def openLog (journal : Journal) : IO Writer := do
  match journal.file with
  | none => return ⟨journal, none⟩
  | some path => return ⟨journal, some (← IO.FS.Handle.mk path .append)⟩

/-- The present moment. -/
def now : IO Moment := do
  return ⟨(← Std.Time.Timestamp.now).toNanosecondsSinceUnixEpoch.toInt.fdiv 1000⟩

/-- Writes the records that are kept. -/
def writeRecords (writer : Option Writer) (records : List Record) : IO Unit := do
  if let some w := writer then
    for r in records.filter (·.passes w.journal.threshold) do
      let entry := r.entry (← now)
      (← IO.getStderr).putStrLn entry
      if let some h := w.file then
        h.putStrLn entry
        h.flush

/-- Writes a text to the standard output at once. -/
def display (text : String) : IO Unit := do
  let out ← IO.getStdout
  out.putStr text
  out.flush

/-- Reports that the program cannot be run. -/
def abandon (message : String) : IO UInt32 := do
  (← IO.getStderr).putStrLn message
  return 1

/-- Reads and answers lines until one of them, or the end of the input, ends the session. -/
partial def converse (writer : Option Writer) (sh : Shell) : IO UInt32 := do
  display Shell.prompt
  let line ← (← IO.getStdin).getLine
  if line.isEmpty then
    display Shell.parting
    return 0
  let response := sh.respond line.toList
  writeRecords writer response.records
  match response.value with
  | .error e => abandon e.message
  | .ok ⟨lines, next⟩ =>
    display (Shell.printed lines)
    match next with
    | none => return 0
    | some sh => converse writer sh

/-- Carries out a run. -/
def perform (settings : Settings) (arguments : List String) : IO UInt32 := do
  match start settings .native arguments with
  | .error f => abandon f.message
  | .ok s =>
    let writer ← s.journal.mapM openLog
    writeRecords writer s.records
    display (Shell.printed s.output)
    (← IO.getStderr).putStr (Shell.printed s.errors)
    match s.next with
    | .exit status => return UInt32.ofNat status
    | .shell sh =>
      display (Shell.printed [Shell.banner])
      converse writer sh

end Formula.Program

def main (arguments : List String) : IO UInt32 := do
  match ← Formula.Program.readSettings with
  | .error e => Formula.Program.abandon e.message
  | .ok settings => Formula.Program.perform settings arguments
