import DateTimeText.Components

/-!
# Times of day

Wall clock times and the nanoseconds they are away from midnight.
-/

namespace DateTimeText

def nanosPerSecond : Int := 1000000000

structure Time where
  hour : Nat
  minute : Nat
  second : Nat
  nano : Nat
deriving DecidableEq, Repr

namespace Time

/-- Whether each part is below its end. -/
def Valid (t : Time) : Prop :=
  t.hour < 24 ∧ t.minute < 60 ∧ t.second < 60 ∧ t.nano < 1000000000

instance (t : Time) : Decidable t.Valid :=
  inferInstanceAs (Decidable (_ ∧ _))

def of (hour minute second nano : Nat) : Except ConfigurationError Time :=
  if (⟨hour, minute, second, nano⟩ : Time).Valid then .ok ⟨hour, minute, second, nano⟩
  else .error .invalidTime

/-- The time of a number of nanoseconds after midnight. -/
def ofNanoOfDay (nanos : Int) : Except PrintError Time := do
  let _ ← Field.nanoOfDay.range.check .nanoOfDay nanos
  let seconds := nanos / nanosPerSecond
  return {
    hour := (seconds / 3600).toNat
    minute := (seconds / 60 % 60).toNat
    second := (seconds % 60).toNat
    nano := (nanos % nanosPerSecond).toNat }

def secondOfDay (t : Time) : Int :=
  t.hour * 3600 + t.minute * 60 + t.second

def nanoOfDay (t : Time) : Int :=
  t.secondOfDay * nanosPerSecond + t.nano

def field (t : Time) : Field → Option Int
  | .nanoOfSecond => some t.nano
  | .nanoOfDay => some t.nanoOfDay
  | .microOfSecond => some (t.nano / 1000)
  | .microOfDay => some (t.nanoOfDay / 1000)
  | .milliOfSecond => some (t.nano / 1000000)
  | .milliOfDay => some (t.nanoOfDay / 1000000)
  | .secondOfMinute => some t.second
  | .secondOfDay => some t.secondOfDay
  | .minuteOfHour => some t.minute
  | .minuteOfDay => some (t.hour * 60 + t.minute)
  | .hourOfAmPm => some (t.hour % 12)
  | .clockHourOfAmPm => some (if t.hour % 12 = 0 then 12 else t.hour % 12)
  | .hourOfDay => some t.hour
  | .clockHourOfDay => some (if t.hour = 0 then 24 else t.hour)
  | .amPmOfDay => some (t.hour / 12)
  | _ => none

def components (t : Time) : Components := ⟨t.field, none, none⟩

end Time

end DateTimeText
