import DateTimeText.Proofs.Node.Cursor
import Mathlib.Data.List.Induction
import Mathlib.Data.List.Sort

/-!
# Ids found in trees

A tree holds each id that was entered into it, whatever is entered after it, since shorter ids are
entered first. The longest id that a text starts with is found in the tree, and it is the one that
is found by comparing the text with every id. It depends on nothing but which ids are in the set.
-/

namespace DateTimeText

namespace IdTree

/-- A search in a tree comes to an id. -/
inductive Holds (id : List Char) : IdTree → Prop
  | here {n : Nat} {branches : List (List Char × IdTree)} {tree : IdTree} (hlength : id.length = n)
    (hbranch : branches.lookup id = some tree) : Holds id (level n branches)
  | inside {n : Nat} {branches : List (List Char × IdTree)} {tree : IdTree} (hlength : n < id.length)
    (hbranch : branches.lookup (id.take n) = some tree) (h : Holds id tree) :
    Holds id (level n branches)

/-- The lengths of the levels of a tree grow from level to level, and lie between two bounds. -/
inductive Within (most : Nat) : Nat → IdTree → Prop
  | empty (least : Nat) : Within most least empty
  | level {least n : Nat} {branches : List (List Char × IdTree)} (hleast : least ≤ n)
    (hmost : n ≤ most)
    (hbelow : ∀ key tree, branches.lookup key = some tree → Within most (n + 1) tree) :
    Within most least (level n branches)

variable {id other key text found : List Char} {known : List Char → Bool} {least most n : Nat}
  {branches : List (List Char × IdTree)} {tree : IdTree}

/-! ### Branches -/

theorem lookup_put : (put key tree branches).lookup other =
    if other = key then some tree else branches.lookup other := by
  induction branches with
  | nil => rw [put, lookup_cons_eq]
  | cons branch branches ih =>
      obtain ⟨k, t⟩ := branch
      rw [put]
      by_cases hk : k = key
      · rw [if_pos hk, lookup_cons_eq, lookup_cons_eq, hk]
        split <;> rfl
      · rw [if_neg hk, lookup_cons_eq, lookup_cons_eq, ih]
        by_cases h : other = k
        · rw [if_pos h, if_neg (h ▸ hk), if_pos h]
        · rw [if_neg h, if_neg h]

theorem lookup_addBelow : (addBelow id key branches).lookup other =
    if other = key then some (add id ((branches.lookup key).getD empty))
    else branches.lookup other := by
  induction branches with
  | nil =>
      rw [addBelow, lookup_cons_eq, List.lookup_nil, List.lookup_nil, Option.getD_none, add]
  | cons branch branches ih =>
      obtain ⟨k, t⟩ := branch
      rw [addBelow]
      by_cases hk : k = key
      · rw [if_pos hk, lookup_cons_eq, lookup_cons_eq, lookup_cons_eq, hk, if_pos rfl,
          Option.getD_some]
        split <;> rfl
      · rw [if_neg hk, lookup_cons_eq, lookup_cons_eq, lookup_cons_eq, ih, if_neg (Ne.symm hk)]
        by_cases h : other = k
        · rw [if_pos h, if_neg (h ▸ hk), if_pos h]
        · rw [if_neg h, if_neg h]

theorem longestBelow?_eq : longestBelow? known text key branches =
    (branches.lookup key).bind (longest? known text) := by
  induction branches with
  | nil => rw [longestBelow?, List.lookup_nil, Option.bind_none]
  | cons branch branches ih =>
      obtain ⟨k, t⟩ := branch
      rw [longestBelow?, lookup_cons_eq]
      by_cases h : k = key
      · rw [if_pos h, if_pos h.symm, Option.bind_some]
      · rw [if_neg h, if_neg (Ne.symm h), ih]

/-! ### Entering ids in the order of their lengths -/

theorem Within.mono {more : Nat} (h : Within most least tree) (hmore : most ≤ more) :
    Within more least tree := by
  induction h with
  | empty least => exact .empty least
  | level hleast hmost _ ih => exact .level hleast (Nat.le_trans hmost hmore) ih

theorem within_single (hleast : least ≤ id.length) :
    Within id.length least (level id.length [(id, empty)]) := by
  refine .level hleast (Nat.le_refl _) fun key tree h => ?_
  rw [lookup_cons_eq] at h
  split at h
  · cases h
    exact .empty _
  · cases h

theorem Within.add (h : Within most least tree) (hmost : most ≤ id.length)
    (hleast : least ≤ id.length) : Within id.length least (tree.add id) := by
  induction h with
  | empty least => exact within_single hleast
  | @level least n branches hlow hhigh hbelow ih =>
      have hn : n ≤ id.length := Nat.le_trans hhigh hmost
      rw [IdTree.add]
      split
      · refine .level hlow hn fun key tree h => ?_
        rw [lookup_put] at h
        split at h
        · cases h
          exact .empty _
        · exact (hbelow key tree h).mono hmost
      · have hlt : n < id.length := by omega
        rw [if_pos hlt]
        refine .level hlow hn fun key tree h => ?_
        rw [lookup_addBelow] at h
        split at h
        · cases h
          cases hbranch : branches.lookup (id.take n) with
          | none => exact within_single hlt
          | some below => exact ih _ below hbranch hlt
        · exact (hbelow key tree h).mono hmost

/-- An id that is not shorter than the ids in a tree is held by it after it is entered. -/
theorem Within.holds_add (h : Within most least tree) (hmost : most ≤ id.length) :
    (tree.add id).Holds id := by
  have hsingle : (IdTree.level id.length [(id, IdTree.empty)]).Holds id := by
    apply Holds.here rfl
    exact List.lookup_cons_self
  induction h with
  | empty least => exact hsingle
  | @level least n branches hlow hhigh hbelow ih =>
      have hn : n ≤ id.length := Nat.le_trans hhigh hmost
      rw [IdTree.add]
      split
      · rename_i hlength
        apply Holds.here hlength
        rw [lookup_put, if_pos rfl]
      · have hlt : n < id.length := by omega
        rw [if_pos hlt]
        apply Holds.inside hlt
        · rw [lookup_addBelow, if_pos rfl]
        · cases hbranch : branches.lookup (id.take n) with
          | none => exact hsingle
          | some below => exact ih _ below hbranch

theorem Holds.least_le (hholds : tree.Holds id) (h : Within most least tree) : least ≤ most := by
  cases h with
  | empty => cases hholds
  | level hleast hmost _ => exact Nat.le_trans hleast hmost

/-- What a tree holds stays in it when an id is entered that is not shorter. -/
theorem Holds.add (hholds : tree.Holds other) (h : Within most least tree)
    (hmost : most ≤ id.length) : (tree.add id).Holds other := by
  induction hholds generalizing least with
  | @here n branches tree hlength hbranch =>
      rw [IdTree.add]
      split
      · obtain ⟨t, ht⟩ : ∃ t, (put id empty branches).lookup other = some t := by
          rw [lookup_put]
          split
          · exact ⟨_, rfl⟩
          · exact ⟨tree, hbranch⟩
        exact .here hlength ht
      split
      · obtain ⟨t, ht⟩ : ∃ t, (addBelow id (id.take n) branches).lookup other = some t := by
          rw [lookup_addBelow]
          split
          · exact ⟨_, rfl⟩
          · exact ⟨tree, hbranch⟩
        exact .here hlength ht
      · exact .here hlength hbranch
  | @inside n branches tree hlength hbranch hinside ih =>
      cases h with
      | level hleast hhigh hbelow =>
          have hwithin := hbelow _ tree hbranch
          -- a longer id was entered before, so this one is not of the length of the level
          have hlt : n < id.length := Nat.le_trans (hinside.least_le hwithin) hmost
          rw [IdTree.add, if_neg (Nat.ne_of_gt hlt), if_pos hlt]
          by_cases hkey : other.take n = id.take n
          · apply Holds.inside hlength
            · rw [lookup_addBelow, if_pos hkey]
            · rw [← hkey, hbranch, Option.getD_some]
              exact ih hwithin
          · apply Holds.inside hlength _ hinside
            rw [lookup_addBelow, if_neg hkey, hbranch]

/-- All ids of a row that does not get shorter are held in the end, and so is what was there. -/
theorem foldl_add {ids : List (List Char)} (hsorted : ids.Pairwise (·.length ≤ ·.length))
    (h : Within most 0 tree) (hmost : ∀ id ∈ ids, most ≤ id.length) :
    (∃ most, Within most 0 (ids.foldl (fun tree id => tree.add id) tree)) ∧
      ∀ other, tree.Holds other ∨ other ∈ ids →
        (ids.foldl (fun tree id => tree.add id) tree).Holds other := by
  induction ids generalizing tree most with
  | nil => exact ⟨⟨most, h⟩, by simp⟩
  | cons id ids ih =>
      obtain ⟨hfirst, hrest⟩ := List.pairwise_cons.1 hsorted
      have hid : most ≤ id.length := hmost id List.mem_cons_self
      obtain ⟨hwithin, hholds⟩ := ih hrest (h.add hid (Nat.zero_le _)) hfirst
      refine ⟨hwithin, fun other hother => hholds other ?_⟩
      rcases hother with hbefore | hmem
      · exact .inl (hbefore.add h hid)
      · rcases List.mem_cons.1 hmem with rfl | hmem
        · exact .inl (h.holds_add hid)
        · exact .inr hmem

/-- Whether an id is entered before another, if both are to be. -/
def entersFirst (a b : List Char) : Bool :=
  decide (a.length < b.length ∨ a.length = b.length ∧ ¬ b < a)

theorem entersFirst_iff {a b : List Char} :
    entersFirst a b = true ↔ a.length < b.length ∨ a.length = b.length ∧ ¬ b < a := by
  rw [entersFirst, decide_eq_true_iff]

theorem entersFirst_trans (a b c : List Char) (hab : entersFirst a b) (hbc : entersFirst b c) :
    entersFirst a c := by
  rw [entersFirst_iff] at hab hbc ⊢
  rcases hab with hab | ⟨hab, hle⟩ <;> rcases hbc with hbc | ⟨hbc, hle'⟩
  · exact .inl (Nat.lt_trans hab hbc)
  · exact .inl (hbc ▸ hab)
  · exact .inl (hab ▸ hbc)
  · refine .inr ⟨hab.trans hbc, ?_⟩
    exact List.not_lt.2 (List.le_trans (List.not_lt.1 hle) (List.not_lt.1 hle'))

theorem entersFirst_total (a b : List Char) : (entersFirst a b || entersFirst b a) = true := by
  rw [Bool.or_eq_true, entersFirst_iff, entersFirst_iff]
  rcases Nat.lt_trichotomy a.length b.length with h | h | h
  · exact .inl (.inl h)
  · rcases List.le_total a b with hle | hle
    · exact .inl (.inr ⟨h, List.not_lt.2 hle⟩)
    · exact .inr (.inr ⟨h.symm, List.not_lt.2 hle⟩)
  · exact .inr (.inl h)

theorem pairwise_length_mergeSort (ids : List (List Char)) :
    (ids.mergeSort entersFirst).Pairwise (·.length ≤ ·.length) := by
  apply (List.pairwise_mergeSort entersFirst_trans entersFirst_total ids).imp
  intro a b h
  rcases entersFirst_iff.1 h with hlt | ⟨heq, -⟩
  · exact Nat.le_of_lt hlt
  · exact Nat.le_of_eq heq

theorem within_ofList (ids : List (List Char)) : ∃ most, Within most 0 (ofList ids) :=
  (foldl_add (pairwise_length_mergeSort ids) (.empty 0) fun _ _ => Nat.zero_le _).1

/-- A tree holds every id that it is made of. -/
theorem holds_ofList {ids : List (List Char)} (h : id ∈ ids) : (ofList ids).Holds id :=
  (foldl_add (pairwise_length_mergeSort ids) (.empty 0) fun _ _ => Nat.zero_le _).2 id
    (.inr (List.mem_mergeSort.2 h))

/-! ### Searching -/

/-- What is found is known and reaches down to the level where the search starts. -/
theorem Within.of_longest? (h : Within most least tree) (hfound : tree.longest? known text = some found) :
    known found = true ∧ least ≤ found.length := by
  induction h with
  | empty least =>
      rw [longest?] at hfound
      cases hfound
  | @level least n branches hleast hmost hbelow ih =>
      rw [longest?, longestBelow?_eq] at hfound
      split at hfound
      · cases hfound
      rename_i hlength
      rcases Option.or_eq_some_iff.1 hfound with hinside | ⟨-, hhere⟩
      · obtain ⟨tree, hbranch, htree⟩ := Option.bind_eq_some_iff.1 hinside
        obtain ⟨hknown, hle⟩ := ih _ tree hbranch htree
        exact ⟨hknown, by omega⟩
      · split at hhere
        · rename_i hknown
          cases hhere
          refine ⟨hknown, ?_⟩
          rw [List.length_take]
          omega
        · cases hhere

/-- An id that a text starts with is found, or a longer one is. -/
theorem Holds.longest? (hholds : tree.Holds id) (h : Within most least tree)
    (hknown : known id = true) (hfront : id <+: text) :
    ∃ found, tree.longest? known text = some found ∧ id.length ≤ found.length := by
  have hlength := hfront.length_le
  induction hholds generalizing least with
  | @here n branches tree hid hbranch =>
      have htake : text.take n = id := by
        rw [← hid]
        exact (List.prefix_iff_eq_take.1 hfront).symm
      rw [IdTree.longest?, if_neg (by omega), longestBelow?_eq, htake, if_pos hknown]
      cases hinside : (branches.lookup id).bind (IdTree.longest? known text) with
      | none => exact ⟨id, rfl, Nat.le_refl _⟩
      | some longer =>
          obtain ⟨t, ht, hlonger⟩ := Option.bind_eq_some_iff.1 hinside
          cases h with
          | level hleast hmost hbelow =>
              have hle := ((hbelow id t ht).of_longest? hlonger).2
              exact ⟨longer, rfl, by omega⟩
  | @inside n branches tree hid hbranch hinside ih =>
      cases h with
      | level hleast hmost hbelow =>
          obtain ⟨longer, hlonger, hle⟩ := ih (hbelow _ tree hbranch)
          have htake : text.take n = id.take n := by
            obtain ⟨rest, rfl⟩ := hfront
            exact List.take_append_of_le_length (Nat.le_of_lt hid)
          refine ⟨longer, ?_, hle⟩
          rw [IdTree.longest?, if_neg (by omega), longestBelow?_eq, htake, hbranch,
            Option.bind_some, hlonger, Option.some_or]

end IdTree

namespace ZoneIds

/-! ### Sets -/

theorem mem_ofList {ids : List String} {name : String} : name ∈ ofList ids ↔ name ∈ ids := by
  change name ∈ putAllByKey id ids ↔ name ∈ ids
  induction ids using List.reverseRecOn with
  | nil => rfl
  | append_singleton ids last ih =>
      rw [putAllByKey_append_singleton, mem_putByKey (keyOrder_putAllByKey id ids), ih,
        List.mem_append, List.mem_singleton, or_comm]
      by_cases hlast : name = last
      · exact iff_of_true (.inr hlast) (.inr hlast)
      · exact or_congr_left (and_iff_left hlast)

theorem eq_of_mem_iff {zones other : ZoneIds} (h : ∀ name, name ∈ zones ↔ name ∈ other) :
    zones = other := by
  obtain ⟨ids, hids⟩ := zones
  obtain ⟨ids', hids'⟩ := other
  obtain rfl : ids = ids' := List.Pairwise.eq_of_mem_iff hids hids' h
  rfl

/-- Ids make one set in whatever order and how often they are listed. -/
theorem ofList_eq_ofList_iff {ids other : List String} :
    ofList ids = ofList other ↔ ∀ name, name ∈ ids ↔ name ∈ other := by
  constructor
  · intro h name
    rw [← mem_ofList, h, mem_ofList]
  · intro h
    apply eq_of_mem_iff
    intro name
    rw [mem_ofList, mem_ofList, h]

/-! ### The longest id of a set -/

/-- An id of a set that a text starts with, such that the text starts with no longer one. -/
structure IsLongest (zones : ZoneIds) (text : List Char) (id : String) : Prop where
  mem : id ∈ zones
  isPrefix : id.toList <+: text
  longest : ∀ other ∈ zones, other.toList <+: text → other.toList.length ≤ id.toList.length

variable {zones : ZoneIds} {text : List Char}

theorem exists_longest? {id : String} (hid : id ∈ zones) (hfront : id.toList <+: text) :
    ∃ found, zones.longest? text = some found ∧ id.toList.length ≤ found.length := by
  have hmem : id.toList ∈ zones.ids.map String.toList := List.mem_map_of_mem hid
  obtain ⟨most, hwithin⟩ := IdTree.within_ofList (zones.ids.map String.toList)
  apply (IdTree.holds_ofList hmem).longest? hwithin _ hfront
  exact List.contains_iff_mem.2 hmem

/-- The search in the tree finds what comparing the text with each id finds. -/
theorem isLongest_of_longest? {found : List Char} (h : zones.longest? text = some found) :
    zones.IsLongest text (String.ofList found) := by
  obtain ⟨most, hwithin⟩ := IdTree.within_ofList (zones.ids.map String.toList)
  obtain ⟨hknown, -⟩ := hwithin.of_longest? h
  obtain ⟨id, hid, rfl⟩ := List.mem_map.1 (List.contains_iff_mem.1 hknown)
  rw [String.ofList_toList]
  refine ⟨hid, prefix_of_longest? h, fun other hother hfront => ?_⟩
  obtain ⟨found, hfound, hle⟩ := exists_longest? hother hfront
  rw [h] at hfound
  cases hfound
  exact hle

theorem IsLongest.unique {id other : String} (h : zones.IsLongest text id)
    (h' : zones.IsLongest text other) : id = other := by
  have hlength := Nat.le_antisymm (h'.longest id h.mem h.isPrefix) (h.longest other h'.mem h'.isPrefix)
  apply String.toList_inj.1
  rw [List.prefix_iff_eq_take.1 h.isPrefix, List.prefix_iff_eq_take.1 h'.isPrefix, hlength]

theorem longest?_eq_none (h : zones.longest? text = none) :
    ∀ id ∈ zones, ¬ id.toList <+: text := by
  intro id hid hfront
  obtain ⟨found, hfound, -⟩ := exists_longest? hid hfront
  rw [h] at hfound
  cases hfound

end ZoneIds

end DateTimeText
