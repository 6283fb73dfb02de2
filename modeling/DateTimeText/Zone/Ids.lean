import DateTimeText.KeyOrder

/-!
# Sets of region ids

A set of ids is kept as a list in the order of their characters, without repetitions.
-/

namespace DateTimeText

/-- The ids of the regions that can be read. -/
structure ZoneIds where
  ids : List String
  sorted : KeyOrder id ids
deriving DecidableEq, Repr

namespace ZoneIds

/-- The set of the ids in a list. -/
def ofList (ids : List String) : ZoneIds where
  ids := putAllByKey id ids
  sorted := keyOrder_putAllByKey id ids

instance : Membership String ZoneIds where
  mem zones id := id ∈ zones.ids

instance (id : String) (zones : ZoneIds) : Decidable (id ∈ zones) :=
  inferInstanceAs (Decidable (id ∈ zones.ids))

def size (zones : ZoneIds) : Nat :=
  zones.ids.length

def first? (zones : ZoneIds) : Option String :=
  zones.ids.head?

end ZoneIds

end DateTimeText
