/-!
# Log records

The calculator never writes a log itself.  What it has to report comes back from each operation as a
list of records, in the order in which they arise, and whoever runs the operation decides which of
them to keep (`Record.passes`).

`Logged α` is a result together with such a list.

The loggers form a hierarchy of two levels: `rootLogger` for the whole program and one logger below
it for each part (`loggerOf`).
-/

set_option autoImplicit false

namespace Formula.Log

/-- The severity of a record, a number that grows with the severity. -/
abbrev Level := Int

namespace Level

def debug : Level := 10
def info : Level := 20
def warning : Level := 30
def error : Level := 40
def critical : Level := 50

end Level

/-- The logger of the whole program. -/
def rootLogger : String := "sheetcalc"

/-- The logger of a part of the program. -/
def loggerOf (part : String) : String := rootLogger ++ "." ++ part

/-- One thing to report. -/
structure Record where
  level : Level
  logger : String
  message : String
deriving DecidableEq

namespace Record

/-- A record for those who look for the cause of an error. -/
def debug (part message : String) : Record := ⟨Level.debug, loggerOf part, message⟩

/-- A record of something that should not have happened. -/
def warning (part message : String) : Record := ⟨Level.warning, loggerOf part, message⟩

/-- Is the record severe enough to be kept? -/
def passes (threshold : Level) (r : Record) : Bool := threshold ≤ r.level

end Record

/-- The result of an operation and what there is to report of it. -/
structure Logged (α : Type) where
  records : List Record
  value : α

namespace Logged

variable {α β : Type}

/-- A result of which there is nothing to report. -/
def quiet (value : α) : Logged α := ⟨[], value⟩

/-- The same report with another result. -/
def map (f : α → β) (l : Logged α) : Logged β := ⟨l.records, f l.value⟩

/-- The same result with more to report. -/
def report (l : Logged α) (records : List Record) : Logged α := ⟨l.records ++ records, l.value⟩

end Logged

end Formula.Log
