import DateTimeText.Mode
import DateTimeText.Node.Reading
import DateTimeText.Style

/-!
# Chronologies as text

A chronology is written as its id. Of the ids that a text starts with, the longest is read, and of
several chronologies of that id the first.
-/

namespace DateTimeText.Chronology

/-- The better of the chronology found so far and the next one: a later one has to be longer. -/
def better (mode : Mode) (text : List Char) (best : Option (Chronology × List Char))
    (next : Chronology) : Option (Chronology × List Char) :=
  if best.any fun b => decide (next.id.length ≤ b.1.id.length) then best
  else
    match mode.strip? next.id.toList text with
    | some rest => some (next, rest)
    | none => best

/-- The chronology whose id a text starts with, and what follows it. -/
def longest? (mode : Mode) (chronologies : List Chronology) (text : List Char) :
    Option (Chronology × List Char) :=
  chronologies.foldl (better mode text) none

def read (mode : Mode) (chronologies : List Chronology) (text : List Char) :
    Except (List Char) Reading :=
  match longest? mode chronologies text with
  | some (chronology, rest) => .ok (.ofChronology chronology rest)
  | none => .error text

def describeStyle : Option TextStyle → String
  | none => "ChronoId()"
  | some style => s!"ChronoText({style.name})"

end DateTimeText.Chronology
