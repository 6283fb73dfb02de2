import DateTimeText.Field

/-!
# Ranges of field values

A range has a smallest and a largest minimum and a smallest and a largest maximum: the day of the
month goes from 1 to 28, 29, 30 or 31. A value belongs to the range if it lies between the outer
bounds.
-/

namespace DateTimeText

/-- The values that a field may take. -/
structure ValueRange where
  min : Int
  largestMin : Int
  smallestMax : Int
  max : Int
deriving DecidableEq, Repr

namespace ValueRange

def fixed (min max : Int) : ValueRange :=
  ⟨min, min, max, max⟩

/-- The range with one minimum whose maximum varies. -/
def variableMax (min smallestMax max : Int) : ValueRange :=
  ⟨min, min, smallestMax, max⟩

/-- Whether neither bound of a range varies. -/
def IsFixed (r : ValueRange) : Prop :=
  r.min = r.largestMin ∧ r.max = r.smallestMax

instance (r : ValueRange) : Decidable r.IsFixed :=
  inferInstanceAs (Decidable (_ ∧ _))

instance : Membership Int ValueRange where
  mem r v := r.min ≤ v ∧ v ≤ r.max

theorem mem_def {v : Int} {r : ValueRange} : v ∈ r ↔ r.min ≤ v ∧ v ≤ r.max := Iff.rfl

instance (v : Int) (r : ValueRange) : Decidable (v ∈ r) :=
  inferInstanceAs (Decidable (_ ∧ _))

/-- The number of values between the outer bounds. -/
def span (r : ValueRange) : Int :=
  r.max - r.min + 1

/-- The text of a range, such as `1 - 28/31`: each bound is written once if it does not vary. -/
def describe (r : ValueRange) : String :=
  toString r.min ++ (if r.min = r.largestMin then "" else s!"/{r.largestMin}") ++
    s!" - {r.smallestMax}" ++ (if r.smallestMax = r.max then "" else s!"/{r.max}")

end ValueRange

/-- The range of a field in the ISO calendar. -/
def Field.range : Field → ValueRange
  | nanoOfSecond => .fixed 0 999999999
  | nanoOfDay => .fixed 0 86399999999999
  | microOfSecond => .fixed 0 999999
  | microOfDay => .fixed 0 86399999999
  | milliOfSecond => .fixed 0 999
  | milliOfDay => .fixed 0 86399999
  | secondOfMinute => .fixed 0 59
  | secondOfDay => .fixed 0 86399
  | minuteOfHour => .fixed 0 59
  | minuteOfDay => .fixed 0 1439
  | hourOfAmPm => .fixed 0 11
  | clockHourOfAmPm => .fixed 1 12
  | hourOfDay => .fixed 0 23
  | clockHourOfDay => .fixed 1 24
  | amPmOfDay => .fixed 0 1
  | dayOfWeek => .fixed 1 7
  | alignedDayOfWeekInMonth => .fixed 1 7
  | alignedDayOfWeekInYear => .fixed 1 7
  | dayOfMonth => .variableMax 1 28 31
  | dayOfYear => .variableMax 1 365 366
  | epochDay => .fixed (-365243219162) 365241780471
  | alignedWeekOfMonth => .variableMax 1 4 5
  | alignedWeekOfYear => .fixed 1 53
  | monthOfYear => .fixed 1 12
  | prolepticMonth => .fixed (-11999999988) 11999999999
  | yearOfEra => .variableMax 1 999999999 1000000000
  | year => .fixed (-999999999) 999999999
  | era => .fixed 0 1
  | instantSeconds => .fixed (-9223372036854775808) 9223372036854775807
  | offsetSeconds => .fixed (-64800) 64800
  | quarterOfYear => .fixed 1 4

end DateTimeText
