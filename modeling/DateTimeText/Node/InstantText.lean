import DateTimeText.DateTime

/-!
# Instants as text

An instant is written as its date and time of day at UTC. Years are counted in eras of ten thousand,
so that every second of the time-line has a text: the era is put in front of a year of four digits.
-/

namespace DateTimeText.Instant

def secondsPerEra : Int := 315569520000

def secondsToEpoch : Int := 62167219200

/-- A year with at least four digits and a sign unless it lies between 0 and 9999. -/
def yearText (year : Int) : List Char :=
  if year.natAbs < 1000 then (if year < 0 then ['-'] else []) ++ zeroPadded 4 year.natAbs
  else (if 9999 < year then ['+'] else []) ++ signedDecimal year

/-- The fraction of a second with as many digits as it needs of three, six or nine. -/
def fractionText (nano : Nat) : List Char :=
  if nano = 0 then []
  else if nano % 1000000 = 0 then '.' :: zeroPadded 3 (nano / 1000000)
  else if nano % 1000 = 0 then '.' :: zeroPadded 6 (nano / 1000)
  else '.' :: zeroPadded 9 nano

/-- The month, day and time of day after a year, with the letter of UTC. -/
def restText (dt : DateTime) : List Char :=
  '-' :: zeroPadded 2 dt.date.month ++ '-' :: zeroPadded 2 dt.date.day ++
    'T' :: zeroPadded 2 dt.time.hour ++ ':' :: zeroPadded 2 dt.time.minute ++
    ':' :: zeroPadded 2 dt.time.second ++ fractionText dt.time.nano ++ ['Z']

def utcText (dt : DateTime) : List Char :=
  yearText dt.date.year ++ restText dt

/-- The date-time of a second after the start of year 0. -/
def sinceYearZero (seconds : Int) (nano : Nat) : Except PrintError DateTime :=
  DateTime.ofEpochSeconds (seconds - secondsToEpoch) nano 0

/-- An instant in its era: the eras away from the one that the date-time is in, the date-time, and
whether it is before year 0. -/
structure InEra where
  era : Int
  dateTime : DateTime
  /-- Whether the instant is the very start of its era. -/
  atStart : Bool
  beforeYearZero : Bool
deriving DecidableEq, Repr

/-- Finds the era of a second. From year 0 on the eras end with a year 9999; before year 0 they end
with a year −10000. -/
def inEra (seconds : Int) (nano : Nat) : Except PrintError InEra :=
  if -secondsToEpoch ≤ seconds then
    let shifted := seconds - secondsPerEra + secondsToEpoch
    (sinceYearZero (shifted % secondsPerEra) nano).map fun dt =>
      ⟨shifted / secondsPerEra + 1, dt, shifted % secondsPerEra = 0, false⟩
  else
    let shifted := seconds + secondsToEpoch
    (sinceYearZero (shifted.tmod secondsPerEra) nano).map fun dt =>
      ⟨shifted.tdiv secondsPerEra, dt, shifted.tmod secondsPerEra = 0, true⟩

/-- How the start of the text of a date-time is changed for its era: the place, the number of
characters that are taken away there and the characters that are put in. -/
structure Splice where
  place : Nat
  removed : Nat
  inserted : List Char
deriving DecidableEq, Repr

/-- The change for an era. The year −10000 gives up its sign and first digit to the era before it; a
year 0 takes the era as it is, and other negative years take it behind their sign. -/
def InEra.splice (i : InEra) : Splice :=
  if i.beforeYearZero then
    if i.era < 0 then
      if i.dateTime.date.year = -10000 then ⟨0, 2, signedDecimal (i.era - 1)⟩
      else if i.atStart then ⟨0, 0, signedDecimal i.era⟩
      else ⟨1, 0, decimal i.era.natAbs⟩
    else ⟨0, 0, []⟩
  else if 0 < i.era then ⟨0, 0, '+' :: decimal i.era.natAbs⟩
  else ⟨0, 0, []⟩

/-- Applies a change to a text from position `start` on. -/
def Splice.apply (p : Splice) (start : Nat) (text : List Char) : List Char :=
  text.take (start + p.place) ++ p.inserted ++ text.drop (start + p.place + p.removed)

/-- The text of an instant of some seconds and a nanosecond. -/
def render (seconds nano : Int) : Except PrintError (List Char) :=
  match Field.nanoOfSecond.range.check .nanoOfSecond nano with
  | .error e => .error e
  | .ok nano => (inEra seconds nano.toNat).map fun i => i.splice.apply 0 (utcText i.dateTime)

/-- The second and nanosecond of the components of an instant, if they are those of a date and time
of day that exist. The year is taken modulo an era. -/
def ofComponents? (v : Components) : Option (Int × Int) := do
  let year ← v.field .year
  let month ← v.field .monthOfYear
  let day ← v.field .dayOfMonth
  let hour ← v.field .hourOfDay
  let minute ← v.field .minuteOfHour
  let second := (v.field .secondOfMinute).getD 0
  let nano := (v.field .nanoOfSecond).getD 0
  let date ← (Date.of (year.tmod 10000) month.toNat day.toNat).toOption
  let time ← (Time.of hour.toNat minute.toNat second.toNat 0).toOption
  return (year.tdiv 10000 * secondsPerEra + (DateTime.mk date time).toEpochSeconds 0, nano)

end DateTimeText.Instant
