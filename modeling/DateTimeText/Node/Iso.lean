import DateTimeText.Node

/-!
# Nodes of the ISO formats

Dates, times of day and instants as ISO 8601 writes them, and the basic form of dates.
-/

namespace DateTimeText.Iso

open Node

def twoDigits (f : Field) : Node :=
  numeral (.plain f 2 2 .notNegative)

/-- The date, such as `2011-12-03`, with a sign in front of years of more than four digits. -/
def localDate : List Node := [
  numeral (.plain .year 4 10 .exceedsPad), literal ['-'], twoDigits .monthOfYear, literal ['-'],
  twoDigits .dayOfMonth]

def secondFraction : Node :=
  group [leaf (.fraction .isoNano)] true

def seconds : Node :=
  group [literal [':'], twoDigits .secondOfMinute, secondFraction] true

/-- The time of day, such as `10:15` or `10:15:30.5`. -/
def localTime : List Node := [
  twoDigits .hourOfDay, literal [':'], twoDigits .minuteOfHour, seconds]

/-- The date and time of day, such as `2011-12-03T10:15:30`. -/
def localDateTime : List Node := [
  mode .caseInsensitive, group localDate false, literal ['T'], group localTime false]

/-- The date and time of day at an offset, such as `2011-12-03T10:15:30+01:00`. -/
def offsetDateTime : List Node := [
  mode .caseInsensitive, group localDateTime false, leaf (.offset .iso)]

/-- The date and time of day of an instant, at UTC. -/
def instantParts : Node :=
  group ([mode .caseInsensitive] ++ localDate ++ [literal ['T']] ++ localTime ++ [literal ['Z']])
    false

def instant : List Node := [mode .caseInsensitive, .instant]

def basicOffset : Node :=
  group [mode .lenient, leaf (.offset ⟨['Z'], .hoursMinutesOptionalSeconds⟩), mode .strict] true

/-- The basic form of dates, such as `20111203` or `20111203+0100`. -/
def basicDate : List Node := [
  mode .caseInsensitive, numeral (.plain .year 4 4 .notNegative), twoDigits .monthOfYear,
  twoDigits .dayOfMonth, basicOffset]

end DateTimeText.Iso
