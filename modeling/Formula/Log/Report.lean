import Formula.Log.Moment
import Formula.Log.Setup
import Formula.Log.Template

/-!
# Entries of the log

An entry of the log is a line with the time, the level in brackets, the logger and the message.  If
an error goes with it, a second line names the error.

A `Report` is what an entry is made of when the message still has to be put together from a template
and the time is a number of seconds.  `Report.entry` makes the entry, `Record.entry` does so for a
record whose message is ready.
-/

set_option autoImplicit false

namespace Formula.Log

/-- A record as an entry of the log that was made at a given time. -/
def Record.entry (r : Record) (time : Moment) : String := time.text ++ " " ++ r.line

/-- What an entry of the log is made of. -/
structure Report where
  logger : String
  level : Level
  template : String
  arguments : List Value
  /-- The number of seconds since the beginning of the year 1970. -/
  created : Value
  /-- The message of the error that goes with it. -/
  cause : Option String

namespace Report

/-- Why there is no entry for a report. -/
inductive Error
  | time (f : Moment.Fault)
  | template (f : Template.Fault)
  /-- The time is not a number. -/
  | timeless

/-- The time of a report, if the calendar has it. -/
def moment (r : Report) : Except Error Moment := do
  let time ← match r.created with
    | .integer n => pure (Moment.ofSeconds n)
    | .bool b => pure (Moment.ofSeconds (if b then 1 else 0))
    | .float x => (Moment.ofBinary64 x).mapError Error.time
    | _ => throw .timeless
  match time.fault? with
  | none => return time
  | some f => throw (.time f)

/-- The line about an error. -/
def causeLine (message : String) : String :=
  if message.isEmpty then "ValueError" else "ValueError: " ++ message

/-- The entry of a report. -/
def entry (r : Report) : Except Error String := do
  let time ← r.moment
  let message ← (Template.fill r.template r.arguments).mapError Error.template
  let first := Record.entry ⟨r.level, r.logger, message⟩ time
  return match r.cause with
    | none => first
    | some cause => first ++ "\n" ++ causeLine cause

end Report

end Formula.Log
