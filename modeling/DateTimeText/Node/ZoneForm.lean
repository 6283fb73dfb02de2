import DateTimeText.Node.OffsetForm
import DateTimeText.Zone.IdTree

/-!
# Zones as text

A zone is written as its id. It is read as an offset, as `UTC`, `UT` or `GMT` with or without an
offset, as the longest region id that is known, or as the letter `Z`.
-/

namespace DateTimeText

namespace ZoneQuery

/-- The zone that is asked for, if the value has it. -/
def find (q : ZoneQuery) (v : Components) : Except FormatError (Option ZoneId) :=
  match q with
  | zone => .ok v.zone
  | region => .ok (v.zone.filter fun z => z.offset?.isNone)
  | zoneOrOffset =>
    match v.zone, v.field .offsetSeconds with
    | some z, _ => .ok (some z)
    | none, none => .ok none
    | none, some seconds =>
      match Field.offsetSeconds.range.check .offsetSeconds seconds with
      | .error e => .error (.print e)
      | .ok seconds =>
        match UtcOffset.ofSeconds seconds with
        | .error e => .error (.configuration e)
        | .ok offset => .ok (some (.offset offset))

/-- Reads an offset within eighteen hours. -/
def readOffset? (text : List Char) : Option (ZoneId × List Char) :=
  match OffsetForm.iso.read? .initial text with
  | some (seconds, rest) =>
    match UtcOffset.ofSeconds seconds with
    | .ok offset => some (.offset offset, rest)
    | .error _ => none
  | none => none

/-- Reads what follows `UTC`, `UT` or `GMT`: an offset, or nothing for UTC itself. -/
def readAfterUtc (text : List Char) : Reading :=
  match readOffset? text with
  | some (found, rest) => .ofZone found rest
  | none => .ofZone (.offset .utc) text

/-- Reads a region id, or else the letter `Z`. -/
def readRegion (zones : ZoneIds) (text : List Char) : Except (List Char) Reading :=
  match zones.longest? text with
  | some id => .ok (.ofZone (.region (String.ofList id)) (text.drop id.length))
  | none =>
    match text with
    | 'Z' :: rest => .ok (.ofZone (.offset .utc) rest)
    | _ => .error text

def read (zones : ZoneIds) (text : List Char) : Except (List Char) Reading :=
  match text with
  | [] => .error []
  | 'U' :: 'T' :: 'C' :: rest => .ok (readAfterUtc rest)
  | 'U' :: 'T' :: rest => .ok (readAfterUtc rest)
  | 'G' :: 'M' :: 'T' :: rest => .ok (readAfterUtc rest)
  | c :: rest =>
    if c = '+' ∨ c = '-' then
      match readOffset? (c :: rest) with
      | some (found, rest) => .ok (.ofZone found rest)
      | none => .error (c :: rest)
    else readRegion zones (c :: rest)

end ZoneQuery

end DateTimeText
