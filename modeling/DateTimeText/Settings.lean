import DateTimeText.Localized.Pattern
import DateTimeText.Symbols
import DateTimeText.Zone.Bundled
import DateTimeText.Zone.IdTree

/-!
# Settings of formats

What every node of a format may ask for: the locale, the symbols of numbers, a chronology that takes
the place of the value's own, and what is known of zones, chronologies and localized patterns.
-/

namespace DateTimeText

structure Settings where
  locale : String
  symbols : Symbols
  chronology : Option Chronology
  zones : ZoneIds
  chronologies : List Chronology
  patterns : PatternSource

namespace Settings

/-- The settings that a format of a locale starts with. -/
def ofLocale (locale : String) : Settings where
  locale := locale
  symbols := .standard
  chronology := none
  zones := .bundled
  chronologies := Chronology.builtin
  patterns := English.patterns

/-- The locale of no language. -/
def rootLocale : String := "und"

def root : Settings := ofLocale rootLocale

end Settings

end DateTimeText
