import DateTimeText.FieldText
import DateTimeText.Mode
import DateTimeText.Node.Numeral

/-!
# Fields as texts

A field is written as the text of its value, or as a number if the value has none. In strict mode
only the texts of its style are read, in lenient mode those of every style and numbers.
-/

namespace DateTimeText

structure TextField where
  field : Field
  style : TextStyle
  source : TextSource

namespace TextField

/-- The number that stands for a value without a text. -/
def number (n : TextField) : Numeral :=
  .plain n.field 1 maxDigits .normal

def render (n : TextField) (s : Symbols) (locale : String) (value : Int) :
    Except PrintError (List Char) :=
  match n.source.text? n.field value n.style locale with
  | some text => .ok text.toList
  | none => n.number.render s value

/-- The first entry that a text starts with, as its value and the text that follows. -/
def firstMatch? (mode : Mode) (text : List Char) : List (String × Int) → Option (Int × List Char)
  | [] => none
  | (candidate, value) :: entries =>
    match mode.strip? candidate.toList text with
    | some rest => some (value, rest)
    | none => firstMatch? mode text entries

/-- Reads the text of a value, or its number where the mode or a lack of texts admits it. -/
def read (n : TextField) (s : Symbols) (locale : String) (mode : Mode) (text : List Char) :
    Except (List Char) Reading :=
  match n.source.entries? n.field (if mode.strict then some n.style else none) locale with
  | none => n.number.read s mode.strict text
  | some entries =>
    match firstMatch? mode text entries with
    | some (value, rest) => .ok (.value n.field value text rest)
    | none => if mode.strict then .error text else n.number.read s mode.strict text

def describe (n : TextField) : String :=
  if n.style = .full then s!"Text({n.field.name})" else s!"Text({n.field.name},{n.style.name})"

end TextField

end DateTimeText
