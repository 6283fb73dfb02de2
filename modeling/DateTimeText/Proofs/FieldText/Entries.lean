import DateTimeText.FieldText
import Mathlib.Data.List.Induction
import Mathlib.Data.List.Nodup
import Mathlib.Data.List.ProdSigma

/-!
# Entries of a text store

A table has one row for a value, so the text that is written for it is the one that its row has.
Sorting entries by the length of their texts keeps those of one length in their order, so the first
entry of a text stays the first. The texts of a style are listed if no two of them are the same, and
then each of them belongs to one value.
-/

namespace DateTimeText

theorem longestFirst_perm (entries : List (String × Int)) :
    (longestFirst entries).Perm entries :=
  List.mergeSort_perm ..

/-- The order of the entries is transitive. -/
theorem longer_trans (a b c : String × Int) (hab : decide (b.1.length ≤ a.1.length) = true)
    (hbc : decide (c.1.length ≤ b.1.length) = true) : decide (c.1.length ≤ a.1.length) = true :=
  decide_eq_true (Nat.le_trans (of_decide_eq_true hbc) (of_decide_eq_true hab))

theorem longer_total (a b : String × Int) :
    (decide (b.1.length ≤ a.1.length) || decide (a.1.length ≤ b.1.length)) = true := by
  rw [Bool.or_eq_true, decide_eq_true_eq, decide_eq_true_eq]
  exact Nat.le_total _ _

theorem pairwise_longestFirst (entries : List (String × Int)) :
    (longestFirst entries).Pairwise fun a b => b.1.length ≤ a.1.length :=
  (List.pairwise_mergeSort longer_trans longer_total entries).imp of_decide_eq_true

/-- Entries of one length are sorted as they stand, and stay so. -/
theorem filter_length_longestFirst (entries : List (String × Int)) (n : Nat) :
    (longestFirst entries).filter (·.1.length == n) = entries.filter (·.1.length == n) := by
  have hsame : (entries.filter (·.1.length == n)).Pairwise fun a b =>
      decide (b.1.length ≤ a.1.length) = true := by
    refine List.pairwise_of_forall_mem_list fun a ha b hb => decide_eq_true ?_
    have ha : a.1.length = n := by simpa using (List.mem_filter.1 ha).2
    have hb : b.1.length = n := by simpa using (List.mem_filter.1 hb).2
    exact Nat.le_of_eq (hb.trans ha.symm)
  have hsub : (entries.filter (·.1.length == n)).Sublist (longestFirst entries) :=
    List.sublist_mergeSort longer_trans longer_total hsame List.filter_sublist
  have hfilter := hsub.filter (·.1.length == n)
  rw [List.filter_filter] at hfilter
  simp only [Bool.and_self] at hfilter
  exact (hfilter.eq_of_length ((longestFirst_perm entries).filter _).length_eq.symm).symm

/-- The first entry of a text is the first of it among the entries of its length. -/
theorem find?_longestFirst (entries : List (String × Int)) (t : String) :
    (longestFirst entries).find? (·.1 == t) = entries.find? (·.1 == t) := by
  have hlength (list : List (String × Int)) : list.find? (·.1 == t) =
      (list.filter (·.1.length == t.length)).find? (·.1 == t) := by
    rw [List.find?_filter]
    congr 1
    funext e
    by_cases h : e.1 = t
    · simp [h]
    · simp [h]
  rw [hlength, filter_length_longestFirst, ← hlength]

namespace TextTable

variable {table : TextTable} {x y : Int} {t : String}

theorem get?_eq_some_iff : table.get? x = some t ↔ (x, t) ∈ table.rows :=
  table.sorted.lookup_eq_some_iff

/-- The text of a value is that of its last row. -/
theorem get?_ofList (rows : List (Int × String)) (x : Int) :
    (ofList rows).get? x = rows.reverse.lookup x := by
  change (putAllByKey Prod.fst rows).lookup x = _
  induction rows using List.reverseRecOn with
  | nil => rfl
  | append_singleton rows row ih =>
      rw [putAllByKey_append_singleton, lookup_putByKey, ih, List.reverse_append,
        List.reverse_singleton, List.singleton_append, lookup_cons_eq]

/-- A text of a table without repetitions belongs to one value. -/
theorem eq_of_mem_rows (h : table.texts.Nodup) (hx : (x, t) ∈ table.rows)
    (hy : (y, t) ∈ table.rows) : x = y :=
  congrArg Prod.fst (List.inj_on_of_nodup_map h hx hy rfl)

end TextTable

namespace TextStore

variable {store : TextStore} {style : TextStyle} {table : TextTable} {t : String} {x y : Int}

/-- A text of a value that can be read in a style: one of a table without repetitions. -/
def Reads (store : TextStore) (style : TextStyle) (t : String) (x : Int) : Prop :=
  ∃ table, store.table? style = some table ∧ table.texts.Nodup ∧ (x, t) ∈ table.rows

theorem Reads.eq (hx : store.Reads style t x) (hy : store.Reads style t y) : x = y := by
  obtain ⟨table, htable, hnodup, hmem⟩ := hx
  obtain ⟨table', htable', -, hmem'⟩ := hy
  obtain rfl : table = table' := Option.some.inj (htable.symm.trans htable')
  exact TextTable.eq_of_mem_rows hnodup hmem hmem'

theorem reads_iff (htable : store.table? style = some table) (hnodup : table.texts.Nodup) :
    store.Reads style t x ↔ (x, t) ∈ table.rows := by
  constructor
  · rintro ⟨table', htable', -, hmem⟩
    obtain rfl : table = table' := Option.some.inj (htable.symm.trans htable')
    exact hmem
  · exact fun hmem => ⟨table, htable, hnodup, hmem⟩

theorem styleEntries?_eq_some_iff {entries : List (String × Int)} :
    store.styleEntries? style = some entries ↔ ∃ table, store.table? style = some table ∧
      table.texts.Nodup ∧ entries = longestFirst (table.rows.map Prod.swap) := by
  rw [styleEntries?, Option.bind_eq_some_iff]
  refine exists_congr fun table => and_congr_right fun _ => ?_
  by_cases hnodup : table.texts.Nodup
  · rw [if_pos hnodup, Option.some_inj, eq_comm]
    exact (and_iff_right hnodup).symm
  · simp [hnodup]

/-- The texts of a style are listed exactly if no two of them are the same. -/
theorem isSome_styleEntries? (store : TextStore) {style : TextStyle} :
    (store.styleEntries? style).isSome = true ↔
      ∃ table, store.table? style = some table ∧ table.texts.Nodup := by
  rw [Option.isSome_iff_exists]
  constructor
  · rintro ⟨entries, hentries⟩
    obtain ⟨table, htable, hnodup, -⟩ := styleEntries?_eq_some_iff.1 hentries
    exact ⟨table, htable, hnodup⟩
  · rintro ⟨table, htable, hnodup⟩
    exact ⟨_, styleEntries?_eq_some_iff.2 ⟨table, htable, hnodup, rfl⟩⟩

theorem perm_of_styleEntries? {entries : List (String × Int)}
    (h : store.styleEntries? style = some entries) (htable : store.table? style = some table) :
    (entries.map Prod.swap).Perm table.rows := by
  obtain ⟨table', htable', -, rfl⟩ := styleEntries?_eq_some_iff.1 h
  obtain rfl : table = table' := Option.some.inj (htable.symm.trans htable')
  have hperm := (longestFirst_perm (table.rows.map Prod.swap)).map Prod.swap
  rwa [List.map_map, Prod.swap_swap_eq, List.map_id] at hperm

theorem mem_of_styleEntries? {entries : List (String × Int)}
    (h : store.styleEntries? style = some entries) : (t, x) ∈ entries ↔ store.Reads style t x := by
  obtain ⟨table, htable, hnodup, rfl⟩ := styleEntries?_eq_some_iff.1 h
  rw [(longestFirst_perm _).mem_iff, reads_iff htable hnodup]
  exact List.mem_map_swap x t table.rows

theorem mem_styleEntries?_getD :
    (t, x) ∈ (store.styleEntries? style).getD [] ↔ store.Reads style t x := by
  cases hentries : store.styleEntries? style with
  | none =>
      refine iff_of_false List.not_mem_nil ?_
      rintro ⟨table, htable, hnodup, -⟩
      have hsome := styleEntries?_eq_some_iff.2 ⟨table, htable, hnodup, rfl⟩
      rw [hentries] at hsome
      cases hsome
  | some entries => exact mem_of_styleEntries? hentries

theorem mem_allEntries : (t, x) ∈ store.allEntries ↔ ∃ style, store.Reads style t x := by
  rw [allEntries, (longestFirst_perm _).mem_iff, List.mem_flatMap]
  refine exists_congr fun style => ?_
  rw [mem_styleEntries?_getD]
  exact and_iff_right (TextStyle.mem_all style)

/-- Among the texts of all styles, the first entry of a text is that of the first style that has the
text. -/
theorem reads_first_of_find? (h : store.allEntries.find? (·.1 == t) = some (t, x)) :
    ∃ earlier style later, TextStyle.all = earlier ++ style :: later ∧ store.Reads style t x ∧
      ∀ other ∈ earlier, ∀ y, ¬ store.Reads other t y := by
  rw [allEntries, find?_longestFirst, List.find?_flatMap, List.findSome?_eq_some_iff] at h
  obtain ⟨earlier, style, later, hall, hfind, hearlier⟩ := h
  refine ⟨earlier, style, later, hall, ?_, fun other hother y hreads => ?_⟩
  · exact mem_styleEntries?_getD.1 (List.mem_of_find?_eq_some hfind)
  · have hnone := List.find?_eq_none.1 (hearlier other hother) (t, y)
      (mem_styleEntries?_getD.2 hreads)
    exact hnone (beq_self_eq_true t)

end TextStore

end DateTimeText
