import DateTimeText.Field.Range

/-!
# Chronologies

A calendar system has an id, the name of its calendar type and a distance of its years from those of
the ISO calendar, by which the ranges of its years are shifted.
-/

namespace DateTimeText

structure Chronology where
  id : String
  calendarType : String
  yearOffset : Int
deriving DecidableEq, Repr

namespace Chronology

def iso : Chronology := ⟨"ISO", "iso8601", 0⟩

def minguo : Chronology := ⟨"Minguo", "roc", 1911⟩

def japanese : Chronology := ⟨"Japanese", "japanese", 0⟩

def thaiBuddhist : Chronology := ⟨"ThaiBuddhist", "buddhist", -543⟩

def hijrah : Chronology := ⟨"Hijrah-umalqura", "islamic-umalqura", 0⟩

/-- The chronologies that are known without a caller naming them. -/
def builtin : List Chronology := [iso, minguo, japanese, thaiBuddhist, hijrah]

instance : Inhabited Chronology := ⟨iso⟩

/-- The chronology of a given id or calendar type. -/
def ofName? (s : String) : Option Chronology :=
  builtin.find? fun c => c.id == s || c.calendarType == s

def range (c : Chronology) (f : Field) : ValueRange :=
  if c.yearOffset = 0 then f.range
  else
    match f with
    | .year => .fixed (f.range.min - c.yearOffset) (f.range.max - c.yearOffset)
    | .prolepticMonth =>
      .fixed (f.range.min - c.yearOffset * 12) (f.range.max - c.yearOffset * 12)
    | .yearOfEra =>
      .variableMax 1 (Field.year.range.max - c.yearOffset)
        (-Field.year.range.min + 1 + c.yearOffset)
    | _ => f.range

end Chronology

end DateTimeText
