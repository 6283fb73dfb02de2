import DateTimeText.Error
import DateTimeText.Text.Decimal

/-!
# Offsets from UTC

An offset is a number of seconds within eighteen hours on either side of UTC. Its id is `Z` or a
sign, hours and minutes, and the seconds if there are any.
-/

namespace DateTimeText

def maxOffset : Nat := 64800

structure UtcOffset where
  total : Int
  natAbs_le : total.natAbs ≤ maxOffset
deriving DecidableEq, Repr

namespace UtcOffset

def utc : UtcOffset := ⟨0, by decide⟩

def ofSeconds (seconds : Int) : Except ConfigurationError UtcOffset :=
  if h : seconds.natAbs ≤ maxOffset then .ok ⟨seconds, h⟩ else .error .offsetOutOfRange

/-- The offset of hours, minutes and seconds, none of which may lie on the other side of zero. -/
def ofParts (hours minutes seconds : Int) : Except ConfigurationError UtcOffset :=
  if (0 < hours ∨ 0 < minutes ∨ 0 < seconds) ∧ (hours < 0 ∨ minutes < 0 ∨ seconds < 0) then
    .error .offsetSigns
  else if 59 < minutes.natAbs ∨ 59 < seconds.natAbs then
    .error .offsetParts
  else
    ofSeconds (hours * 3600 + minutes * 60 + seconds)

/-- The id of an offset, such as `Z`, `+01:30` or `-05:00:07`. -/
def id (offset : UtcOffset) : List Char :=
  let n := offset.total.natAbs
  if n = 0 then
    ['Z']
  else
    (if offset.total < 0 then '-' else '+') :: zeroPadded 2 (n / 3600) ++
      ':' :: zeroPadded 2 (n / 60 % 60) ++
      if n % 60 = 0 then [] else ':' :: zeroPadded 2 (n % 60)

end UtcOffset

end DateTimeText
