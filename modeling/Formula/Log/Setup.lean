import Formula.Digits
import Formula.Log.Record
import Formula.Text.LetterCase
import Formula.Text.Quoted

/-!
# Setting up the log

The log goes to the standard error stream, and to a file as well if one is given.  How much of it is
kept depends on a level, which is given by name and without regard to letter case.  A name that
means nothing counts as `WARNING`.

Two names mean something, but not a level (`reserved`); asking for one of them is an error.

* `levelOf` — the level of a name.
* `configure` — the level and the destinations of the log.
* `threshold` — the level from which on records are kept.  The level `NOTSET` leaves the decision to
  the logger above all others, which keeps warnings.
* `Record.line` — a record as the log shows it, without its time.
-/

set_option autoImplicit false

namespace Formula.Log

/-! ## Levels by name -/

/-- The levels by name. -/
def levelNames : List (String × Level) :=
  [("CRITICAL", .critical), ("FATAL", .critical), ("ERROR", .error), ("WARNING", .warning),
   ("WARN", .warning), ("INFO", .info), ("DEBUG", .debug), ("NOTSET", 0)]

/-- The name of a level: the first that is listed for it, or its number. -/
def Level.name (level : Level) : String :=
  match levelNames.find? (·.2 = level) with
  | some (name, _) => name
  | none => s!"Level {Digits.intText level}"

/-- A name that means something other than a level. -/
inductive Reserved
  /-- The name of a text. -/
  | text (s : String)
  /-- The name of something that is no text either. -/
  | other
deriving DecidableEq

/-- The names that mean something other than a level. -/
def reserved : List (String × Reserved) :=
  [("BASIC_FORMAT", .text "%(levelname)s:%(name)s:%(message)s"), ("_STYLES", .other)]

/-- The wording of the error for a name that means something other than a level. -/
def Reserved.message : Reserved → String
  | text s => s!"Unknown level: {Text.quotedString s}"
  | other => "Level not an integer or a valid string"

/-- The level that a name asks for. -/
def levelOf (name : String) : Except Reserved Level :=
  let upper := Text.upperLevel name
  match reserved.lookup upper with
  | some r => .error r
  | none => .ok ((levelNames.lookup upper).getD .warning)

/-! ## Destinations -/

/-- Where the log goes. -/
inductive Destination
  | errorStream
  | file
deriving DecidableEq

/-- A log that is set up. -/
structure Configuration where
  level : Level
  destinations : List Destination
deriving DecidableEq

/-- The log at a level of a given name, with a file or without. -/
def configure (level : String) (withFile : Bool) : Except Reserved Configuration := do
  return ⟨← levelOf level, .errorStream :: if withFile then [.file] else []⟩

/-- The level from which on records are kept. -/
def Configuration.threshold (c : Configuration) : Level :=
  if c.level = 0 then .warning else c.level

/-- A record as the log shows it, without its time. -/
def Record.line (r : Record) : String := s!"[{r.level.name}] {r.logger}: {r.message}"

end Formula.Log
