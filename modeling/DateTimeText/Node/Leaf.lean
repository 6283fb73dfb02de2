import DateTimeText.Node.ChronologyForm
import DateTimeText.Node.Fraction
import DateTimeText.Node.TextField
import DateTimeText.Node.ZoneForm
import DateTimeText.Settings

/-!
# Leaves

The parts of a format that have no parts of their own: each has a text for a value and reads its own
piece of a text.
-/

namespace DateTimeText

/-- A part of a format without parts of its own. -/
inductive Leaf
  | literal (chars : List Char)
  | numeral (numeral : Numeral)
  | fraction (fraction : Fraction)
  | text (field : TextField)
  | offset (offset : OffsetForm)
  | zone (query : ZoneQuery)
  | zoneText (style : TextStyle)
  | chronology (style : Option TextStyle)

namespace Leaf

/-- The text of the field of a value, if the value has the field. -/
def renderField {ε : Type} (lift : ε → FormatError) (render : Int → Except ε (List Char))
    (value : Option Int) : Except FormatError (Option (List Char)) :=
  match value with
  | none => .ok none
  | some v =>
    match render v with
    | .ok cs => .ok (some cs)
    | .error e => .error (lift e)

/-- The text of a leaf for a value, or nothing if the value lacks what the leaf writes. -/
def render (s : Settings) (v : Components) : Leaf → Except FormatError (Option (List Char))
  | literal l => .ok (some l)
  | numeral n => renderField .print (n.render s.symbols) (v.field n.field)
  | fraction n => renderField id (n.render s.symbols) (v.field n.field)
  | text n => renderField .print (n.render s.symbols s.locale) (v.field n.field)
  | offset o => renderField .print o.render (v.field .offsetSeconds)
  | zone q => (q.find v).map fun found => found.map ZoneId.id
  | zoneText _ => .ok (v.zone.map ZoneId.id)
  | chronology _ => .ok ((s.chronology.or v.chronology).map (·.id.toList))

def readLiteral (mode : Mode) (literal text : List Char) : Except (List Char) Reading :=
  match mode.strip? literal text with
  | some rest => .ok (.skip rest)
  | none => .error text

/-- Reads a leaf from the start of a text. The name of a zone cannot be read. -/
def read (s : Settings) (mode : Mode) (text : List Char) : Leaf → Except (List Char) Reading
  | literal l => readLiteral mode l text
  | numeral n => n.read s.symbols mode.strict text
  | fraction n => n.read s.symbols mode.strict text
  | .text n => n.read s.symbols s.locale mode text
  | offset o => o.read mode text
  | zone _ => ZoneQuery.read s.zones text
  | zoneText _ => .error text
  | chronology _ => Chronology.read mode s.chronologies text

/-- The description of a literal, which is the pattern for it: quotes are doubled, and a quote alone
is two quotes. -/
def describeLiteral (text : List Char) : List Char :=
  if text = ['\''] then ['\'', '\''] else '\'' :: doubleQuotes text ++ ['\'']

def describe : Leaf → List Char
  | literal l => describeLiteral l
  | numeral n => n.describe.toList
  | fraction n => n.describe.toList
  | text n => n.describe.toList
  | offset o => o.describe
  | zone q => q.describe.toList
  | zoneText style => s!"ZoneText({style.name})".toList
  | chronology style => (Chronology.describeStyle style).toList

end Leaf

end DateTimeText
