import DateTimeText.Zone.Ids

/-!
# Trees of region ids

The ids are found by their prefixes. A level of the tree looks at a fixed number of characters from
the start of the text, and each branch of it is kept under the prefix of that length. The ids are
entered in the order of their lengths, so the length of a level is that of the shortest id below it.
-/

namespace DateTimeText

/-- A tree of prefixes of ids. -/
inductive IdTree
  | empty
  | level (length : Nat) (branches : List (List Char × IdTree))

namespace IdTree

/-- The branches with `tree` in place of the one under `key`, or after them if there is none. -/
def put (key : List Char) (tree : IdTree) :
    List (List Char × IdTree) → List (List Char × IdTree)
  | [] => [(key, tree)]
  | (k, t) :: rest => if k = key then (key, tree) :: rest else (k, t) :: put key tree rest

mutual

/-- Enters an id. An id of the length of a level becomes a branch of it, a longer one goes into the
branch of its prefix, and a shorter one has no place. -/
def add (id : List Char) : IdTree → IdTree
  | empty => level id.length [(id, empty)]
  | level n branches =>
    if id.length = n then level n (put id empty branches)
    else if n < id.length then level n (addBelow id (id.take n) branches)
    else level n branches

/-- Enters an id into the branch under `key`. -/
def addBelow (id key : List Char) : List (List Char × IdTree) → List (List Char × IdTree)
  | [] => [(key, level id.length [(id, empty)])]
  | (k, t) :: rest =>
    if k = key then (k, add id t) :: rest else (k, t) :: addBelow id key rest

end

/-- The tree of a list of ids, entered by length and then in order. -/
def ofList (ids : List (List Char)) : IdTree :=
  (ids.mergeSort fun a b => decide (a.length < b.length ∨ a.length = b.length ∧ ¬ b < a)).foldl
    (fun tree id => tree.add id) empty

mutual

/-- The longest start of a text that the tree leads to and that `known` accepts. -/
def longest? (known : List Char → Bool) (text : List Char) : IdTree → Option (List Char)
  | empty => none
  | level n branches =>
    if text.length < n then none
    else
      (longestBelow? known text (text.take n) branches).or
        (if known (text.take n) then some (text.take n) else none)

/-- The longest start of a text to be found in the branch under `key`. -/
def longestBelow? (known : List Char → Bool) (text key : List Char) :
    List (List Char × IdTree) → Option (List Char)
  | [] => none
  | (k, t) :: rest =>
    if k = key then longest? known text t else longestBelow? known text key rest

end

end IdTree

/-- The longest id of the set that the text starts with. -/
def ZoneIds.longest? (zones : ZoneIds) (text : List Char) : Option (List Char) :=
  let ids := zones.ids.map String.toList
  (IdTree.ofList ids).longest? (fun candidate => ids.contains candidate) text

end DateTimeText
