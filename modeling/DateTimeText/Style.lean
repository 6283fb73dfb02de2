/-!
# Styles

How signs, the texts of values and localized patterns are chosen.
-/

namespace DateTimeText

/-- When a number is written and read with a sign. -/
inductive SignStyle
  /-- A sign only in front of negative numbers. -/
  | normal
  /-- Always a sign. -/
  | always
  /-- Never a sign: the absolute value is written. -/
  | never
  /-- No sign, and no negative number. -/
  | notNegative
  /-- A plus sign if the number is wider than its least width. -/
  | exceedsPad
deriving DecidableEq, Repr, Inhabited

namespace SignStyle

def all : List SignStyle := [normal, always, never, notNegative, exceedsPad]

def name : SignStyle → String
  | normal => "NORMAL"
  | always => "ALWAYS"
  | never => "NEVER"
  | notNegative => "NOT_NEGATIVE"
  | exceedsPad => "EXCEEDS_PAD"

def ofName? (s : String) : Option SignStyle :=
  all.find? (·.name == s)

/-- Whether a sign may be read: a plus sign or not, in strict mode or not, in front of a number
whose width is fixed or not. -/
def admits : SignStyle → (positive strict fixedWidth : Bool) → Bool
  | normal, positive, strict, _ => !positive || !strict
  | always, _, _, _ => true
  | exceedsPad, _, _, _ => true
  | never, _, strict, fixedWidth => !strict && !fixedWidth
  | notNegative, _, strict, fixedWidth => !strict && !fixedWidth

end SignStyle

/-- How long the text of a value is. -/
inductive TextStyle
  /-- The full text, such as `Monday`. -/
  | full
  /-- An abbreviation, such as `Mon`. -/
  | short
  /-- A letter or so, such as `M`. -/
  | narrow
deriving DecidableEq, Repr, Inhabited

namespace TextStyle

/-- Every style of texts, in the order in which they are tried. -/
def all : List TextStyle := [full, short, narrow]

@[simp] theorem mem_all (style : TextStyle) : style ∈ all := by
  cases style <;> decide

def name : TextStyle → String
  | full => "FULL"
  | short => "SHORT"
  | narrow => "NARROW"

def ofName? (s : String) : Option TextStyle :=
  all.find? (·.name == s)

end TextStyle

/-- How detailed a localized date or time is. -/
inductive FormatStyle
  | full
  | long
  | medium
  | short
deriving DecidableEq, Repr

namespace FormatStyle

def all : List FormatStyle := [full, long, medium, short]

def name : FormatStyle → String
  | full => "FULL"
  | long => "LONG"
  | medium => "MEDIUM"
  | short => "SHORT"

def ofName? (s : String) : Option FormatStyle :=
  all.find? (·.name == s)

end FormatStyle

end DateTimeText
