import DateTimeText.Date
import DateTimeText.Text.Decimal
import DateTimeText.Time

/-!
# Date-times and instants

A date with a time of day, its second of the time-line at an offset, and instants as seconds and
nanoseconds of the time-line.
-/

namespace DateTimeText

def secondsPerDay : Int := 86400

structure DateTime where
  date : Date
  time : Time
deriving DecidableEq, Repr

namespace DateTime

/-- The date-time of a second of the time-line at an offset, with the nanoseconds short of a second
that `nanos` has. -/
def ofEpochSeconds (seconds : Int) (nanos : Nat) (offset : Int) : Except PrintError DateTime := do
  let shifted := seconds + offset
  if ¬ FitsInt64 shifted then throw .instantOutOfRange
  let date ← Date.ofEpochDays (shifted / secondsPerDay)
  let time ← Time.ofNanoOfDay
    (shifted % secondsPerDay * nanosPerSecond + (nanos % 1000000000 : Nat))
  return ⟨date, time⟩

/-- The second of the time-line of a date-time at an offset. -/
def toEpochSeconds (dt : DateTime) (offset : Int) : Int :=
  dt.date.toEpochDays * secondsPerDay + dt.time.secondOfDay - offset

def components (dt : DateTime) : Components :=
  dt.date.components.orElse dt.time.components

end DateTime

/-- A point of the time-line, counted from 1970-01-01T00:00Z. -/
structure Instant where
  seconds : Int
  nanos : Nat
deriving DecidableEq, Repr

namespace Instant

def epoch : Instant := ⟨0, 0⟩

/-- The instant of some seconds and less than a second of nanoseconds. -/
def of (seconds : Int) (nanos : Nat) : Except ConfigurationError Instant :=
  if nanos < 1000000000 then .ok ⟨seconds, nanos⟩ else .error .nanosOutOfRange

def field (i : Instant) : Field → Option Int
  | .instantSeconds => some i.seconds
  | .nanoOfSecond => some i.nanos
  | .microOfSecond => some (i.nanos / 1000)
  | .milliOfSecond => some (i.nanos / 1000000)
  | _ => none

def components (i : Instant) : Components := ⟨i.field, none, none⟩

end Instant

end DateTimeText
