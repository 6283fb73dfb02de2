import DateTimeText.Formatter

/-!
# The ISO formatters

Formatters of the formats of ISO 8601, for no language.
-/

namespace DateTimeText.Formatter

def ofNodes (nodes : List Node) : Formatter := ⟨nodes, .root⟩

def isoLocalDate : Formatter := ofNodes Iso.localDate

def isoLocalTime : Formatter := ofNodes Iso.localTime

def isoLocalDateTime : Formatter := ofNodes Iso.localDateTime

def isoOffsetDateTime : Formatter := ofNodes Iso.offsetDateTime

def isoInstant : Formatter := ofNodes Iso.instant

def basicIsoDate : Formatter := ofNodes Iso.basicDate

end DateTimeText.Formatter
