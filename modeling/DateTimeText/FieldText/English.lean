import DateTimeText.FieldText

/-!
# English texts

The names of months, days of the week, quarters, halves of the day and eras, for every locale.
-/

namespace DateTimeText.English

/-- The table of consecutive values from `first` on. -/
def tableFrom (first : Int) (texts : List String) : TextTable :=
  .ofList (texts.mapIdx fun i text => (first + i, text))

def abbreviated (n : Nat) (name : String) : String :=
  String.ofList (name.toList.take n)

/-- Names with their abbreviations to `n` characters and to one. -/
def namedStore (first : Int) (names : List String) (n : Nat) : TextStore :=
  .ofList [
    (.full, tableFrom first names),
    (.short, tableFrom first (names.map (abbreviated n))),
    (.narrow, tableFrom first (names.map (abbreviated 1)))]

def months : List String := [
  "January", "February", "March", "April", "May", "June", "July", "August", "September", "October",
  "November", "December"]

def days : List String := [
  "Monday", "Tuesday", "Wednesday", "Thursday", "Friday", "Saturday", "Sunday"]

def store? : Field → Option TextStore
  | .monthOfYear => some (namedStore 1 months 3)
  | .dayOfWeek => some (namedStore 1 days 3)
  | .quarterOfYear => some (.ofList [
      (.full, tableFrom 1 ["1st quarter", "2nd quarter", "3rd quarter", "4th quarter"]),
      (.short, tableFrom 1 ["Q1", "Q2", "Q3", "Q4"]),
      (.narrow, tableFrom 1 ["1", "2", "3", "4"])])
  | .amPmOfDay => some (.ofList [
      (.full, tableFrom 0 ["AM", "PM"]),
      (.short, tableFrom 0 ["AM", "PM"]),
      (.narrow, tableFrom 0 ["a", "p"])])
  | .era => some (.ofList [
      (.full, tableFrom 0 ["Before Christ", "Anno Domini"]),
      (.short, tableFrom 0 ["BC", "AD"]),
      (.narrow, tableFrom 0 ["B", "A"])])
  | _ => none

/-- The English texts of every field that has some. -/
def texts : TextSource where
  text? f value style _ := (store? f).bind (·.text? value style)
  entries? f style _ := (store? f).bind (·.entries? style)

end DateTimeText.English
