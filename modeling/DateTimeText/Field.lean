/-!
# Date-time fields

The fields that a date-time value may have, with their names and the pattern letters that stand for
them.
-/

namespace DateTimeText

/-- A part of a date-time value, such as the month of the year or the hour of the day. -/
inductive Field
  | nanoOfSecond
  | nanoOfDay
  | microOfSecond
  | microOfDay
  | milliOfSecond
  | milliOfDay
  | secondOfMinute
  | secondOfDay
  | minuteOfHour
  | minuteOfDay
  | hourOfAmPm
  | clockHourOfAmPm
  | hourOfDay
  | clockHourOfDay
  | amPmOfDay
  | dayOfWeek
  | alignedDayOfWeekInMonth
  | alignedDayOfWeekInYear
  | dayOfMonth
  | dayOfYear
  | epochDay
  | alignedWeekOfMonth
  | alignedWeekOfYear
  | monthOfYear
  | prolepticMonth
  | yearOfEra
  | year
  | era
  | instantSeconds
  | offsetSeconds
  | quarterOfYear
deriving DecidableEq, Repr

namespace Field

/-- Every field, in the order in which the fields of a value are listed. -/
def all : List Field := [
  nanoOfSecond, nanoOfDay, microOfSecond, microOfDay, milliOfSecond, milliOfDay, secondOfMinute,
  secondOfDay, minuteOfHour, minuteOfDay, hourOfAmPm, clockHourOfAmPm, hourOfDay, clockHourOfDay,
  amPmOfDay, dayOfWeek, alignedDayOfWeekInMonth, alignedDayOfWeekInYear, dayOfMonth, dayOfYear,
  epochDay, alignedWeekOfMonth, alignedWeekOfYear, monthOfYear, prolepticMonth, yearOfEra, year,
  era, instantSeconds, offsetSeconds, quarterOfYear]

@[simp] theorem mem_all (f : Field) : f ∈ all := by
  cases f <;> decide

def name : Field → String
  | nanoOfSecond => "NanoOfSecond"
  | nanoOfDay => "NanoOfDay"
  | microOfSecond => "MicroOfSecond"
  | microOfDay => "MicroOfDay"
  | milliOfSecond => "MilliOfSecond"
  | milliOfDay => "MilliOfDay"
  | secondOfMinute => "SecondOfMinute"
  | secondOfDay => "SecondOfDay"
  | minuteOfHour => "MinuteOfHour"
  | minuteOfDay => "MinuteOfDay"
  | hourOfAmPm => "HourOfAmPm"
  | clockHourOfAmPm => "ClockHourOfAmPm"
  | hourOfDay => "HourOfDay"
  | clockHourOfDay => "ClockHourOfDay"
  | amPmOfDay => "AmPmOfDay"
  | dayOfWeek => "DayOfWeek"
  | alignedDayOfWeekInMonth => "AlignedDayOfWeekInMonth"
  | alignedDayOfWeekInYear => "AlignedDayOfWeekInYear"
  | dayOfMonth => "DayOfMonth"
  | dayOfYear => "DayOfYear"
  | epochDay => "EpochDay"
  | alignedWeekOfMonth => "AlignedWeekOfMonth"
  | alignedWeekOfYear => "AlignedWeekOfYear"
  | monthOfYear => "MonthOfYear"
  | prolepticMonth => "ProlepticMonth"
  | yearOfEra => "YearOfEra"
  | year => "Year"
  | era => "Era"
  | instantSeconds => "InstantSeconds"
  | offsetSeconds => "OffsetSeconds"
  | quarterOfYear => "QuarterOfYear"

def ofName? (s : String) : Option Field :=
  all.find? (·.name == s)

/-- The field that a pattern letter stands for. Letters of zones, offsets and padding have none. -/
def ofLetter? : Char → Option Field
  | 'G' => some era
  | 'y' => some year
  | 'Q' => some quarterOfYear
  | 'M' => some monthOfYear
  | 'D' => some dayOfYear
  | 'd' => some dayOfMonth
  | 'F' => some alignedWeekOfMonth
  | 'E' => some dayOfWeek
  | 'a' => some amPmOfDay
  | 'H' => some hourOfDay
  | 'k' => some clockHourOfDay
  | 'K' => some hourOfAmPm
  | 'h' => some clockHourOfAmPm
  | 'm' => some minuteOfHour
  | 's' => some secondOfMinute
  | 'S' => some nanoOfSecond
  | 'n' => some nanoOfSecond
  | 'A' => some milliOfDay
  | 'N' => some nanoOfDay
  | _ => none

end Field

end DateTimeText
