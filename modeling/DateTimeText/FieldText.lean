import DateTimeText.Field
import DateTimeText.KeyOrder
import DateTimeText.Style

/-!
# Texts of field values

A table gives the texts of values in one style. A store has a table for each of some styles and
lists the texts that can be read back: the texts of a style only if they are all distinct, the
longest first, and all such texts together.
-/

namespace DateTimeText

/-- Texts of values, in the order of the values, with one text for each. -/
structure TextTable where
  rows : List (Int × String)
  sorted : KeyOrder Prod.fst rows
deriving DecidableEq, Repr

namespace TextTable

/-- The table of a list of rows, of which a later one replaces an earlier one of its value. -/
def ofList (rows : List (Int × String)) : TextTable where
  rows := putAllByKey Prod.fst rows
  sorted := keyOrder_putAllByKey Prod.fst rows

def get? (table : TextTable) (value : Int) : Option String :=
  table.rows.lookup value

def texts (table : TextTable) : List String :=
  table.rows.map (·.2)

end TextTable

/-- The entries ordered by the length of their texts, the longest first, else as they are. -/
def longestFirst (entries : List (String × Int)) : List (String × Int) :=
  entries.mergeSort fun a b => decide (b.1.length ≤ a.1.length)

/-- Tables of texts for some styles. -/
structure TextStore where
  table? : TextStyle → Option TextTable

namespace TextStore

/-- The store of a list of tables, of which a later one replaces an earlier one of its style. -/
def ofList (tables : List (TextStyle × TextTable)) : TextStore where
  table? style := tables.reverse.lookup style

def ofFullTexts (table : TextTable) : TextStore :=
  ofList [(.full, table)]

def text? (store : TextStore) (value : Int) (style : TextStyle) : Option String :=
  (store.table? style).bind (·.get? value)

/-- The texts of a style with their values, if no two of them are the same. -/
def styleEntries? (store : TextStore) (style : TextStyle) : Option (List (String × Int)) :=
  (store.table? style).bind fun table =>
    if table.texts.Nodup then some (longestFirst (table.rows.map fun row => (row.2, row.1)))
    else none

/-- The texts of every style whose texts can be read. -/
def allEntries (store : TextStore) : List (String × Int) :=
  longestFirst (TextStyle.all.flatMap fun style => (store.styleEntries? style).getD [])

/-- The texts that can be read, of one style or of all. -/
def entries? (store : TextStore) : Option TextStyle → Option (List (String × Int))
  | some style => store.styleEntries? style
  | none => some store.allEntries

end TextStore

/-- Where the texts of fields come from: the text of a value in a style and locale, and the texts
that can be read with their values, of one style or of all. -/
structure TextSource where
  text? : Field → Int → TextStyle → (locale : String) → Option String
  entries? : Field → Option TextStyle → (locale : String) → Option (List (String × Int))

/-- The texts of a store, for every field and locale. -/
def TextStore.source (store : TextStore) : TextSource where
  text? _ value style _ := store.text? value style
  entries? _ style _ := store.entries? style

end DateTimeText
