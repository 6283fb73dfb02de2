/-!
# Patterns of offsets

The nine forms in which an offset is written. A part in upper case is always there, a part in lower
case only if it is not zero.
-/

namespace DateTimeText

/-- A form of offsets. -/
inductive OffsetPattern
  /-- `+HH` -/
  | hours
  /-- `+HHmm` -/
  | hoursOptionalMinutes
  /-- `+HH:mm` -/
  | hoursColonOptionalMinutes
  /-- `+HHMM` -/
  | hoursMinutes
  /-- `+HH:MM` -/
  | hoursColonMinutes
  /-- `+HHMMss` -/
  | hoursMinutesOptionalSeconds
  /-- `+HH:MM:ss` -/
  | hoursColonMinutesOptionalSeconds
  /-- `+HHMMSS` -/
  | hoursMinutesSeconds
  /-- `+HH:MM:SS` -/
  | hoursColonMinutesSeconds
deriving DecidableEq, Repr

/-- Whether a part of an offset is there. -/
inductive PartUse
  | absent
  | optional
  | mandatory
deriving DecidableEq, Repr

namespace OffsetPattern

/-- Every form of offsets, the shortest first. -/
def all : List OffsetPattern := [
  hours, hoursOptionalMinutes, hoursColonOptionalMinutes, hoursMinutes, hoursColonMinutes,
  hoursMinutesOptionalSeconds, hoursColonMinutesOptionalSeconds, hoursMinutesSeconds,
  hoursColonMinutesSeconds]

def name : OffsetPattern → String
  | hours => "+HH"
  | hoursOptionalMinutes => "+HHmm"
  | hoursColonOptionalMinutes => "+HH:mm"
  | hoursMinutes => "+HHMM"
  | hoursColonMinutes => "+HH:MM"
  | hoursMinutesOptionalSeconds => "+HHMMss"
  | hoursColonMinutesOptionalSeconds => "+HH:MM:ss"
  | hoursMinutesSeconds => "+HHMMSS"
  | hoursColonMinutesSeconds => "+HH:MM:SS"

def ofName? (s : String) : Option OffsetPattern :=
  all.find? (·.name == s)

/-- Whether colons stand between the parts. -/
def hasColons : OffsetPattern → Bool
  | hoursColonOptionalMinutes => true
  | hoursColonMinutes => true
  | hoursColonMinutesOptionalSeconds => true
  | hoursColonMinutesSeconds => true
  | _ => false

/-- How minutes are written and read. -/
def minutes : OffsetPattern → PartUse
  | hours => .absent
  | hoursOptionalMinutes => .optional
  | hoursColonOptionalMinutes => .optional
  | _ => .mandatory

/-- How seconds are written. -/
def seconds : OffsetPattern → PartUse
  | hoursMinutesOptionalSeconds => .optional
  | hoursColonMinutesOptionalSeconds => .optional
  | hoursMinutesSeconds => .mandatory
  | hoursColonMinutesSeconds => .mandatory
  | _ => .absent

/-- How seconds are read: they may follow wherever minutes have to stand. -/
def secondsRead (p : OffsetPattern) : PartUse :=
  if p.minutes = .mandatory then .optional else .absent

end OffsetPattern

end DateTimeText
