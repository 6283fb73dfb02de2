import DateTimeText.Chronology
import DateTimeText.Error
import DateTimeText.Style

/-!
# Localized patterns

Where the patterns of a date and a time style come from: built-in English ones, or a table of rows
of which the first that fits is taken.
-/

namespace DateTimeText

/-- A source of patterns for a date style, a time style, a chronology and a locale. -/
def PatternSource : Type :=
  Option FormatStyle → Option FormatStyle → Chronology → (locale : String) →
    Except FormatError String

namespace English

def datePattern : FormatStyle → String
  | .full => "EEEE, MMMM d, y"
  | .long => "MMMM d, y"
  | .medium => "MMM d, y"
  | .short => "M/d/yy"

def timePattern : FormatStyle → String
  | .full => "h:mm:ss a zzzz"
  | .long => "h:mm:ss a z"
  | .medium => "h:mm:ss a"
  | .short => "h:mm a"

/-- The English patterns, for every chronology and locale. -/
def patterns : PatternSource := fun date time _ _ =>
  match date, time with
  | some d, some t => .ok (datePattern d ++ " " ++ timePattern t)
  | some d, none => .ok (datePattern d)
  | none, some t => .ok (timePattern t)
  | none, none => .error (.configuration .noPatternStyle)

end English

/-- A pattern for two styles, and perhaps only for one chronology or one locale. -/
structure PatternRow where
  date : Option FormatStyle
  time : Option FormatStyle
  chronology : Option String
  locale : Option String
  pattern : String
deriving DecidableEq, Repr

def PatternRow.fits (row : PatternRow) (date time : Option FormatStyle)
    (chronology locale : String) :
    Bool :=
  row.date == date && row.time == time && row.chronology.all (· == chronology) &&
    row.locale.all (· == locale)

/-- The patterns of a table, which has none for a request that no row fits. -/
def PatternSource.ofRows (rows : List PatternRow) : PatternSource :=
  fun date time chronology locale =>
  match rows.find? (·.fits date time chronology.id locale) with
  | some row => .ok row.pattern
  | none => .error (.reported .configuration "no localized pattern" none)

end DateTimeText
