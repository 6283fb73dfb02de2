import DateTimeText.Components

/-!
# Dates

Dates of the proleptic Gregorian calendar and the days they are away from 1970-01-01.
-/

namespace DateTimeText

/-- The days from the start of year 0 to 1970-01-01. -/
def daysToEpoch : Int := 719528

/-- The days of four hundred years. -/
def daysPerCycle : Int := 146097

def isLeapYear (year : Int) : Bool :=
  year % 4 == 0 && (year % 100 != 0 || year % 400 == 0)

def daysInMonth (year : Int) (month : Nat) : Nat :=
  if month = 2 then if isLeapYear year then 29 else 28
  else if month = 4 ∨ month = 6 ∨ month = 9 ∨ month = 11 then 30
  else 31

/-- The number of days of the months before a month. -/
def daysBeforeMonth (year : Int) : (month : Nat) → Nat
  | 0 => 0
  | 1 => 0
  | m + 2 => daysBeforeMonth year (m + 1) + daysInMonth year (m + 1)

/-- The days of the years before `year` in years that start in March, from year 0 on. -/
def daysBeforeMarchYear (year : Int) : Int :=
  365 * year + year / 4 - year / 100 + year / 400

structure Date where
  year : Int
  month : Nat
  day : Nat
deriving DecidableEq, Repr

namespace Date

/-- Whether the month has the day and the year is in range. -/
def Valid (d : Date) : Prop :=
  d.year ∈ Field.year.range ∧ 1 ≤ d.month ∧ d.month ≤ 12 ∧ 1 ≤ d.day ∧
    d.day ≤ daysInMonth d.year d.month

instance (d : Date) : Decidable d.Valid :=
  inferInstanceAs (Decidable (_ ∧ _))

def of (year : Int) (month day : Nat) : Except ConfigurationError Date :=
  if year ∉ Field.year.range then .error .yearOutOfRange
  else if month < 1 ∨ 12 < month ∨ day = 0 ∨ daysInMonth year month < day then .error .invalidDate
  else .ok ⟨year, month, day⟩

/-- The date of a number of days after 1970-01-01. The year is first estimated from the days since
March of year 0, then put right. -/
def ofEpochDays (days : Int) : Except PrintError Date := do
  let _ ← Field.epochDay.range.check .epochDay days
  let sinceMarch := days + daysToEpoch - 60
  let cycles := if sinceMarch < 0 then Int.tdiv (sinceMarch + 1) daysPerCycle - 1 else 0
  let rest := sinceMarch - cycles * daysPerCycle
  let estimate := (400 * rest + 591) / daysPerCycle
  let marchYear := if rest < daysBeforeMarchYear estimate then estimate - 1 else estimate
  let dayOfYear := rest - daysBeforeMarchYear marchYear
  let marchMonth := (dayOfYear * 5 + 2) / 153
  return {
    year := marchYear + cycles * 400 + marchMonth / 10
    month := ((marchMonth + 2) % 12 + 1).toNat
    day := (dayOfYear - (marchMonth * 306 + 5) / 10 + 1).toNat }

/-- The leap days from year 0 up to a year, or down to it as a negative number. -/
def leapDaysBefore (year : Int) : Int :=
  if 0 ≤ year then (year + 3) / 4 - (year + 99) / 100 + (year + 399) / 400
  else -(-year / 4 - -year / 100 + -year / 400)

/-- The number of days from 1970-01-01 to a date. -/
def toEpochDays (d : Date) : Int :=
  let afterFebruary : Int := if d.month ≤ 2 then 0 else if isLeapYear d.year then 1 else 2
  365 * d.year + leapDaysBefore d.year + (367 * d.month - 362) / 12 + (d.day - 1) - afterFebruary -
    daysToEpoch

/-- The day of the week, from 1 for Monday to 7 for Sunday. -/
def dayOfWeek (d : Date) : Int :=
  (d.toEpochDays + 3) % 7 + 1

/-- The day of the year, from 1 to 366. -/
def dayOfYear (d : Date) : Int :=
  daysBeforeMonth d.year d.month + d.day

def field (d : Date) : Field → Option Int
  | .dayOfWeek => some d.dayOfWeek
  | .alignedDayOfWeekInMonth => some ((d.day - 1) % 7 + 1)
  | .alignedDayOfWeekInYear => some ((d.dayOfYear - 1) % 7 + 1)
  | .dayOfMonth => some d.day
  | .dayOfYear => some d.dayOfYear
  | .epochDay => some d.toEpochDays
  | .alignedWeekOfMonth => some ((d.day - 1) / 7 + 1)
  | .alignedWeekOfYear => some ((d.dayOfYear - 1) / 7 + 1)
  | .monthOfYear => some d.month
  | .prolepticMonth => some (d.year * 12 + d.month - 1)
  | .yearOfEra => some (if 1 ≤ d.year then d.year else 1 - d.year)
  | .year => some d.year
  | .era => some (if 1 ≤ d.year then 1 else 0)
  | .quarterOfYear => some ((d.month - 1) / 3 + 1)
  | _ => none

def components (d : Date) : Components := ⟨d.field, none, some .iso⟩

end Date

end DateTimeText
