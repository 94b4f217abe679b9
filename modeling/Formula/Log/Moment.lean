import Formula.Binary64.Nearest
import Formula.Digits
import Std.Time.Date.PlainDate

/-!
# Moments

Every entry of the log says when it was made.  A `Moment` is a whole number of microseconds since
the beginning of the year 1970, by the calendar and the clock of UTC.

* `ofSeconds` and `ofBinary64` — the moment a number of seconds later than that beginning.  The
  fraction of a second is turned into microseconds in floating-point arithmetic and then rounded, a
  half to the even neighbour.
* `fault?` — the calendar has the years from 1 to 9999, and the first day of the year 1 is not
  available either.  It is the day before that counts as the culprit, since whether a moment is
  repeated by a change of the clock is looked up a day earlier.
* `text` — date and time, the microseconds only if there are any.
-/

set_option autoImplicit false

-- Powers are those of the core library.
attribute [local instance (high)] instPowNat

namespace Formula.Log

/-- The number of microseconds since the beginning of the year 1970. -/
structure Moment where
  micros : Int
deriving DecidableEq

namespace Moment

/-! ## Numbers of seconds -/

/-- Why a number of seconds is no moment. -/
inductive Fault
  | notANumber
  /-- The number does not fit into the counter of the clock, which has 64 bits. -/
  | beyondClock
  /-- The year does not fit into 32 bits. -/
  | beyondCalendar
  /-- The calendar does not have this year. -/
  | year (n : Int)
deriving DecidableEq

/-- The wording of a fault. -/
def Fault.message : Fault → String
  | notANumber => "Invalid value NaN (not a number)"
  | beyondClock => "timestamp out of range for platform time_t"
  | beyondCalendar => "[Errno 75] Value too large for defined data type"
  | year n => s!"year {Digits.intText n} is out of range"

/-- The moment after a whole number of seconds. -/
def ofSeconds (n : Int) : Moment := ⟨n * 1000000⟩

/-- The number of microseconds in the fraction `± c / d` of a second. -/
def fractionMicros (negative : Bool) (c : Nat) (e : Int) : Int :=
  match (Binary64.ofDecimal (.finite negative (c * 1000000) e)).toDecimal with
  | .finite s c e => Decimal.signed s (Binary64.roundEven (c * 10 ^ e.toNat) (10 ^ (-e).toNat))
  | _ => 0

/-- The moment after a number of seconds that need not be whole. -/
def ofBinary64 (x : Binary64) : Except Fault Moment :=
  if x.isNaN then .error .notANumber
  else if x.isInfinite then .error .beyondClock
  else match x.toDecimal with
    | .finite s c e =>
      let unit := 10 ^ (-e).toNat
      let whole := Decimal.signed s (c * 10 ^ e.toNat / unit)
      .ok ⟨whole * 1000000 + fractionMicros s (c * 10 ^ e.toNat % unit) (min e 0)⟩
    | _ => .error .notANumber

/-! ## Date and time -/

/-- The whole seconds that have passed. -/
def seconds (m : Moment) : Int := m.micros.fdiv 1000000

/-- The whole days that have passed. -/
def days (m : Moment) : Int := m.seconds.fdiv 86400

/-- The date of a day, by its distance from the beginning of the year 1970. -/
def dateOf (days : Int) : Std.Time.PlainDate := .ofEpochDay ⟨days⟩

/-- The year of a day. -/
def yearOf (days : Int) : Int := (dateOf days).year.toInt

/-- What is wrong with a moment that is none of the calendar. -/
def fault? (m : Moment) : Option Fault :=
  if m.seconds < -0x8000000000000000 ∨ 0x8000000000000000 ≤ m.seconds then some .beyondClock
  else
    let year := yearOf m.days
    if year - 1900 < -0x80000000 ∨ 0x80000000 ≤ year - 1900 then some .beyondCalendar
    else if year < 1 ∨ 9999 < year then some (.year year)
    else
      let earlier := yearOf (m.days - 1)
      if earlier < 1 then some (.year earlier) else none

/-- A number in a given width, filled up with zeros. -/
def padded (width : Nat) (n : Int) : String :=
  let ds := Digits.ofInt n
  String.ofList (List.replicate (width - ds.length) '0' ++ ds)

/-- Date and time. -/
def text (m : Moment) : String :=
  let date := dateOf m.days
  let second := m.seconds.fmod 86400
  let fraction := m.micros.fmod 1000000
  let day := "-".intercalate
    [padded 4 date.year.toInt, padded 2 date.month.toInt, padded 2 date.day.toInt]
  let time := ":".intercalate
    [padded 2 (second / 3600), padded 2 (second / 60 % 60), padded 2 (second % 60)]
  day ++ "T" ++ time ++ if fraction = 0 then "" else "." ++ padded 6 fraction

example : (ofSeconds 0).text = "1970-01-01T00:00:00" := by decide +kernel

end Moment

end Formula.Log
