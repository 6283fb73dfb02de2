import DateTimeText.Offset

/-!
# Zones

A zone is a region, known by its id, or a fixed offset.
-/

namespace DateTimeText

inductive ZoneId
  /-- A region such as `Europe/Paris`. -/
  | region (id : String)
  | offset (offset : UtcOffset)
deriving DecidableEq, Repr

def ZoneId.id : ZoneId → List Char
  | region id => id.toList
  | offset o => o.id

/-- The offset of a zone, if it is fixed. -/
def ZoneId.offset? : ZoneId → Option UtcOffset
  | region _ => none
  | offset o => some o

/-- Which zone of a value is written. -/
inductive ZoneQuery
  /-- The zone, whatever it is. -/
  | zone
  /-- The zone, if it is a region. -/
  | region
  /-- The zone, else the offset of the value. -/
  | zoneOrOffset
deriving DecidableEq, Repr

def ZoneQuery.describe : ZoneQuery → String
  | zone => "ZoneId()"
  | region => "ZoneRegionId()"
  | zoneOrOffset => "ZoneOrOffsetId()"

end DateTimeText
