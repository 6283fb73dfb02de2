import DateTimeText.Components
import DateTimeText.Symbols

/-!
# What is read

The result of reading a part of a text: values, a zone or a chronology, and the text that is left. A
failure is the text that is left where the mismatch was found.
-/

namespace DateTimeText

/-- What was read at the start of a text. If a value contradicts one that was read before, this is
found where `conflictAt` is left of the text. -/
structure Reading where
  fields : List (Field × Int)
  zone : Option ZoneId
  chronology : Option Chronology
  conflictAt : List Char
  rest : List Char
deriving DecidableEq

namespace Reading

/-- Nothing but some text. -/
def skip (rest : List Char) : Reading := ⟨[], none, none, rest, rest⟩

def value (f : Field) (v : Int) (conflictAt rest : List Char) : Reading :=
  ⟨[(f, v)], none, none, conflictAt, rest⟩

def ofZone (zone : ZoneId) (rest : List Char) : Reading := ⟨[], some zone, none, rest, rest⟩

def ofChronology (chronology : Chronology) (rest : List Char) : Reading :=
  ⟨[], none, some chronology, rest, rest⟩

end Reading

/-- The values of the digits that a text starts with, at most `limit` of them. -/
def Symbols.digitRun (s : Symbols) : (limit : Nat) → List Char → List Nat
  | 0, _ => []
  | _ + 1, [] => []
  | limit + 1, c :: cs =>
    match s.digit? c with
    | some d => d :: s.digitRun limit cs
    | none => []

end DateTimeText
