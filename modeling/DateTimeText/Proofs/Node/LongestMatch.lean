import DateTimeText.Proofs.FieldText.Entries
import DateTimeText.Proofs.Node.LeafReading
import DateTimeText.Proofs.Node.Rendering

/-!
# Texts are read by longest match

With regard to case a text field reads the longest text at the start of what is left: in strict mode
among the texts of its style, in lenient mode among those of all styles, where an earlier style goes
first. In lenient mode a number is read only if there is no such text.
-/

namespace DateTimeText

/-- With regard to case, an expected text is found where it stands and nowhere else. -/
theorem Mode.strip?_eq_some_iff {mode : Mode} (hcase : mode.caseSensitive = true)
    {expected text rest : List Char} :
    mode.strip? expected text = some rest ↔ text = expected ++ rest := by
  constructor
  · refine Mode.eq_append_of_strip? fun a _ c hsame => ?_
    rw [sameChar, if_pos hcase] at hsame
    exact (eq_of_beq hsame).symm
  · rintro rfl
    exact mode.strip?_append expected rest

namespace TextField

variable {mode : Mode} {text : List Char} {entries : List (String × Int)}

/-- The first match is an entry that a text starts with, and no entry before it is one. -/
theorem firstMatch?_cases (hcase : mode.caseSensitive = true) (text : List Char)
    (entries : List (String × Int)) :
    (∃ before t x after rest, entries = before ++ (t, x) :: after ∧
        (∀ e ∈ before, ¬ e.1.toList <+: text) ∧ text = t.toList ++ rest ∧
        firstMatch? mode text entries = some (x, rest)) ∨
      (∀ e ∈ entries, ¬ e.1.toList <+: text) ∧ firstMatch? mode text entries = none := by
  induction entries with
  | nil => exact .inr ⟨nofun, rfl⟩
  | cons entry entries ih =>
      obtain ⟨t, x⟩ := entry
      cases hstrip : mode.strip? t.toList text with
      | some rest =>
          refine .inl ⟨[], t, x, entries, rest, rfl, nofun, ?_, ?_⟩
          · exact (Mode.strip?_eq_some_iff hcase).1 hstrip
          · rw [firstMatch?, hstrip]
      | none =>
          have hnot : ¬ t.toList <+: text := by
            rintro ⟨rest, hrest⟩
            rw [(Mode.strip?_eq_some_iff hcase).2 hrest.symm] at hstrip
            cases hstrip
          have hnext : firstMatch? mode text ((t, x) :: entries) =
              firstMatch? mode text entries := by
            rw [firstMatch?, hstrip]
          rw [hnext]
          rcases ih with ⟨before, t', x', after, rest, rfl, hbefore, htext, hmatch⟩ | ⟨hall, hmatch⟩
          · refine .inl ⟨(t, x) :: before, t', x', after, rest, rfl, ?_, htext, hmatch⟩
            exact List.forall_mem_cons.2 ⟨hnot, hbefore⟩
          · exact .inr ⟨List.forall_mem_cons.2 ⟨hnot, hall⟩, hmatch⟩

/-- Among entries with the longest first, the first match has the longest text, and is the first
entry of it. -/
theorem firstMatch?_of_pairwise (hcase : mode.caseSensitive = true) (text : List Char)
    (hsorted : entries.Pairwise fun a b => b.1.length ≤ a.1.length) :
    (∃ t x rest, entries.find? (·.1 == t) = some (t, x) ∧ text = t.toList ++ rest ∧
        (∀ e ∈ entries, e.1.toList <+: text → e.1.length ≤ t.length) ∧
        firstMatch? mode text entries = some (x, rest)) ∨
      (∀ e ∈ entries, ¬ e.1.toList <+: text) ∧ firstMatch? mode text entries = none := by
  refine (firstMatch?_cases hcase text entries).imp_left ?_
  rintro ⟨before, t, x, after, rest, rfl, hbefore, htext, hmatch⟩
  refine ⟨t, x, rest, ?_, htext, fun e he hprefix => ?_, hmatch⟩
  · refine List.find?_eq_some_iff_append.2 ⟨beq_self_eq_true t, before, after, rfl, ?_⟩
    rintro e he
    rw [Bool.not_eq_true', beq_eq_false_iff_ne]
    rintro rfl
    exact hbefore e he ⟨rest, htext.symm⟩
  · have hafter := (List.pairwise_cons.1 (List.pairwise_append.1 hsorted).2.1).1
    rcases List.mem_append.1 he with he | he
    · exact absurd hprefix (hbefore e he)
    · rcases List.mem_cons.1 he with rfl | he
      · exact Nat.le_refl _
      · exact hafter e he

variable {style : TextStyle} {store : TextStore}

/-- In strict mode the longest text of the style is read, or none is there. -/
theorem read_store_strict (hcase : mode.caseSensitive = true) (hstrict : mode.strict = true)
    {table : TextTable} (htable : store.table? style = some table) (hnodup : table.texts.Nodup)
    (f : Field) (s : Symbols) (locale : String) (text : List Char) :
    (∃ t x rest, store.Reads style t x ∧ text = t.toList ++ rest ∧
        (∀ t' x', store.Reads style t' x' → t'.toList <+: text → t'.length ≤ t.length) ∧
        read ⟨f, style, store.source⟩ s locale mode text = .ok (.value f x text rest)) ∨
      (∀ t x, store.Reads style t x → ¬ t.toList <+: text) ∧
        read ⟨f, style, store.source⟩ s locale mode text = .error text := by
  have hentries := TextStore.styleEntries?_eq_some_iff.2 ⟨table, htable, hnodup, rfl⟩
  have hmem (t x) := TextStore.mem_of_styleEntries? (t := t) (x := x) hentries
  simp only [read, hstrict, if_true, TextStore.source, TextStore.entries?, hentries]
  rcases firstMatch?_of_pairwise hcase text (pairwise_longestFirst (table.rows.map Prod.swap)) with
    ⟨t, x, rest, hfind, htext, hlongest, hmatch⟩ | ⟨hnone, hmatch⟩
  · refine .inl ⟨t, x, rest, ?_, htext, fun t' x' hreads => ?_, by rw [hmatch]⟩
    · exact (hmem t x).1 (List.mem_of_find?_eq_some hfind)
    · exact hlongest (t', x') ((hmem t' x').2 hreads)
  · exact .inr ⟨fun t x hreads => hnone (t, x) ((hmem t x).2 hreads), by rw [hmatch]⟩

/-- In lenient mode the longest text of all styles is read, of several styles the first, or no text
is there and a number is read. -/
theorem read_store_lenient (hcase : mode.caseSensitive = true) (hlenient : mode.strict = false)
    (store : TextStore) (f : Field) (style : TextStyle) (s : Symbols) (locale : String)
    (text : List Char) :
    (∃ earlier st later t x rest, TextStyle.all = earlier ++ st :: later ∧
        store.Reads st t x ∧ text = t.toList ++ rest ∧
        (∀ st' t' x', store.Reads st' t' x' → t'.toList <+: text →
          t'.length ≤ t.length ∧ (st' ∈ earlier → t'.length < t.length)) ∧
        read ⟨f, style, store.source⟩ s locale mode text = .ok (.value f x text rest)) ∨
      (∀ st t x, store.Reads st t x → ¬ t.toList <+: text) ∧
        read ⟨f, style, store.source⟩ s locale mode text =
          (number ⟨f, style, store.source⟩).read s false text := by
  simp only [read, hlenient, Bool.false_eq_true, if_false, TextStore.source, TextStore.entries?]
  have hsorted : store.allEntries.Pairwise fun a b => b.1.length ≤ a.1.length :=
    pairwise_longestFirst _
  rcases firstMatch?_of_pairwise hcase text hsorted with
    ⟨t, x, rest, hfind, htext, hlongest, hmatch⟩ | ⟨hnone, hmatch⟩
  · obtain ⟨earlier, st, later, hall, hreads, hearlier⟩ := TextStore.reads_first_of_find? hfind
    refine .inl ⟨earlier, st, later, t, x, rest, hall, hreads, htext,
      fun st' t' x' hreads' hprefix => ?_, by rw [hmatch]⟩
    have hle : t'.length ≤ t.length :=
      hlongest (t', x') (TextStore.mem_allEntries.2 ⟨st', hreads'⟩) hprefix
    -- A text of an earlier style is not of the same length, since it would be the same text.
    refine ⟨hle, fun hst' => hle.lt_of_ne fun hlength => hearlier st' hst' x' ?_⟩
    have hsame : t'.toList = t.toList := by
      refine (List.prefix_of_prefix_length_le hprefix ⟨rest, htext.symm⟩ ?_).eq_of_length ?_
      · rw [String.length_toList, String.length_toList, hlength]
      · rw [String.length_toList, String.length_toList, hlength]
    rwa [← String.toList_inj.1 hsame]
  · refine .inr ⟨fun st t x hreads => ?_, by rw [hmatch]⟩
    exact hnone (t, x) (TextStore.mem_allEntries.2 ⟨st, hreads⟩)

end TextField

namespace Node

variable {store : TextStore} {style : TextStyle} {f : Field} {t : String} {x : Int}

theorem prints_text (s : Settings) (h : store.text? x style = some t) :
    Prints s (leaf (.text ⟨f, style, store.source⟩)) f x t.toList := by
  refine prints_of_render fun v hv => ?_
  have hrender : TextField.render ⟨f, style, store.source⟩ s.symbols s.locale x =
      .ok t.toList := by
    simp only [TextField.render, TextStore.source, h]
  rw [Leaf.render, hv, Leaf.renderField, hrender]

/-- A text that is all there is to read is its own longest match. -/
theorem parse_text_of_mem (s : Settings) {c : Context} (hcase : c.mode.caseSensitive = true)
    (hstrict : c.mode.strict = true) {table : TextTable} (htable : store.table? style = some table)
    (hnodup : table.texts.Nodup) (hmem : (x, t) ∈ table.rows)
    (hc : ∀ old ∈ c.current.field f, old = x) :
    (leaf (.text ⟨f, style, store.source⟩)).parse s c t.toList =
      ({ c with current := c.current.set f x }, .ok []) := by
  have hreads : store.Reads style t x := ⟨table, htable, hnodup, hmem⟩
  rcases TextField.read_store_strict hcase hstrict htable hnodup f s.symbols s.locale t.toList with
    ⟨t', x', rest, hreads', htext, hlongest, hread⟩ | ⟨hnone, -⟩
  · have hlength := hlongest t x hreads (List.prefix_refl _)
    obtain ⟨hsame, hrest⟩ : t.toList = t'.toList ∧ [] = rest := by
      refine List.append_inj (by rw [List.append_nil, htext]) (Nat.le_antisymm ?_ ?_)
      · rwa [String.length_toList, String.length_toList]
      · rw [htext, List.length_append]
        exact Nat.le_add_right _ _
    obtain rfl := String.toList_inj.1 hsame
    obtain rfl := hreads.eq hreads'
    rw [parse_leaf, Leaf.read, hread, ← hrest]
    exact Context.storeResult_value hc _ _
  · exact absurd (List.prefix_refl _) (hnone t x hreads)

/-- A text field is read by longest match. The texts of a style are listed if and only if they are
distinct, as a permutation of its table. In strict mode the longest text of such a style that the
text starts with is read, and if there is none the node fails at its start, so what it writes reads
back. In lenient mode the longest text of all such styles is read, of two styles the earlier, and a
number only if there is none. -/
theorem parse_text_longest (tables : List (TextStyle × TextTable)) (s : Settings) (f : Field)
    (style : TextStyle) {c : Context} (hcase : c.mode.caseSensitive = true) (text : List Char) :
    let store := TextStore.ofList tables
    let node := leaf (.text ⟨f, style, store.source⟩)
    let stored (x : Int) (rest : List Char) : Parsed :=
      ({ c with current := c.current.set f x },
        if (c.current.field f).all (· == x) then .ok rest else .error text)
    (∀ st, ((store.entries? (some st)).isSome = true ↔
          ∃ table, store.table? st = some table ∧ table.texts.Nodup) ∧
        ∀ entries table, store.entries? (some st) = some entries → store.table? st = some table →
          (entries.map Prod.swap).Perm table.rows) ∧
      (∀ table, store.table? style = some table → table.texts.Nodup → c.mode.strict = true →
        ((∃ x t rest, (x, t) ∈ table.rows ∧ text = t.toList ++ rest ∧
              (∀ x' t', (x', t') ∈ table.rows → t'.toList <+: text → t'.length ≤ t.length) ∧
              node.parse s c text = stored x rest) ∨
            (∀ x t, (x, t) ∈ table.rows → ¬ t.toList <+: text) ∧
              node.parse s c text = (c, .error text)) ∧
          ∀ x t, table.get? x = some t → node.Prints s f x t.toList ∧
            ((∀ old ∈ c.current.field f, old = x) → node.parse s c t.toList =
              ({ c with current := c.current.set f x }, .ok []))) ∧
      (c.mode.strict = false →
        (∃ earlier st later t x rest, TextStyle.all = earlier ++ st :: later ∧
            store.Reads st t x ∧ text = t.toList ++ rest ∧
            (∀ st' t' x', store.Reads st' t' x' → t'.toList <+: text →
              t'.length ≤ t.length ∧ (st' ∈ earlier → t'.length < t.length)) ∧
            node.parse s c text = stored x rest) ∨
          (∀ st t x, store.Reads st t x → ¬ t.toList <+: text) ∧
            node.parse s c text =
              (leaf (.numeral (.plain f 1 maxDigits .normal))).parse s c text) := by
  intro store node stored
  have hstored {x rest} (hread : Leaf.read s c.mode text (.text ⟨f, style, store.source⟩) =
      .ok (.value f x text rest)) : node.parse s c text = stored x rest := by
    rw [parse_leaf, hread]
    exact Context.storeResult_value_eq ..
  refine ⟨fun st => ⟨?_, fun entries table hentries htable => ?_⟩,
    fun table htable hnodup hstrict => ⟨?_, fun x t hget => ⟨?_, ?_⟩⟩, fun hlenient => ?_⟩
  · exact store.isSome_styleEntries?
  · exact TextStore.perm_of_styleEntries? hentries htable
  · have hreads (t x) := TextStore.reads_iff (t := t) (x := x) htable hnodup
    rcases TextField.read_store_strict hcase hstrict htable hnodup f s.symbols s.locale text with
      ⟨t, x, rest, hmem, htext, hlongest, hread⟩ | ⟨hnone, hread⟩
    · refine .inl ⟨x, t, rest, (hreads t x).1 hmem, htext, fun x' t' hmem' => ?_, hstored hread⟩
      exact hlongest t' x' ((hreads t' x').2 hmem')
    · refine .inr ⟨fun x t hmem => hnone t x ((hreads t x).2 hmem), ?_⟩
      rw [parse_leaf, Leaf.read, hread]
      rfl
  · refine prints_text s ?_
    rw [TextStore.text?, htable, Option.bind_some, hget]
  · exact parse_text_of_mem s hcase hstrict htable hnodup (TextTable.get?_eq_some_iff.1 hget)
  · rcases TextField.read_store_lenient hcase hlenient store f style s.symbols s.locale text with
      ⟨earlier, st, later, t, x, rest, hall, hmem, htext, hlongest, hread⟩ | ⟨hnone, hread⟩
    · exact .inl ⟨earlier, st, later, t, x, rest, hall, hmem, htext, hlongest, hstored hread⟩
    · refine .inr ⟨hnone, ?_⟩
      rw [parse_leaf, parse_leaf, Leaf.read, Leaf.read, hread, hlenient]
      rfl

/-- Of the three short texts that start the text, the longest is read, and of the two texts `Jun` in
lenient mode the full one. The narrow texts are not distinct. -/
theorem parse_text_longest_shared :
    let short : TextTable := ⟨[(1, "J"), (6, "Ju"), (7, "Jun")], by decide⟩
    let tables : List (TextStyle × TextTable) := [
      (.narrow, ⟨[(6, "J"), (7, "J")], by decide⟩), (.short, short),
      (.full, ⟨[(1, "Jan"), (6, "Jun")], by decide⟩)]
    let store := TextStore.ofList tables
    let node := leaf (.text ⟨.monthOfYear, .short, store.source⟩)
    let lenient : Context := ⟨⟨true, false⟩, .empty, []⟩
    (Context.initial.mode.caseSensitive = true ∧ lenient.mode.caseSensitive = true ∧
        store.table? .short = some short ∧ short.texts.Nodup ∧
        Context.initial.mode.strict = true ∧ lenient.mode.strict = false ∧
        short.get? 6 = some "Ju" ∧ ¬ store.Reads .narrow "J" 6) ∧
      Prints .root node .monthOfYear 6 ['J', 'u'] ∧
      node.parse .root .initial ['J', 'u'] =
        ({ Context.initial with current := Components.empty.set .monthOfYear 6 }, .ok []) ∧
      node.parse .root .initial ['J', 'u', 'n', 'i'] =
        ({ Context.initial with current := Components.empty.set .monthOfYear 7 }, .ok ['i']) ∧
      node.parse .root lenient ['J', 'u', 'n', 'i'] =
        ({ lenient with current := Components.empty.set .monthOfYear 6 }, .ok ['i']) := by
  intro short tables store node lenient
  have hnarrow : ¬ store.Reads .narrow "J" 6 := by
    rintro ⟨table, htable, hnodup, -⟩
    cases htable
    exact absurd hnodup (by decide)
  refine ⟨⟨rfl, rfl, rfl, by decide, rfl, rfl, rfl, hnarrow⟩, ?_⟩
  obtain ⟨-, hstrict, -⟩ := parse_text_longest tables .root .monthOfYear .short
    (c := .initial) rfl ['J', 'u', 'n', 'i']
  obtain ⟨hread, hback⟩ := hstrict short rfl (by decide) rfl
  obtain ⟨hprints, hparse⟩ := hback 6 "Ju" rfl
  refine ⟨hprints, hparse nofun, ?_, ?_⟩
  · rcases hread with ⟨x, t, rest, hmem, htext, hlongest, hread⟩ | ⟨hnone, -⟩
    · have hlength := hlongest 7 "Jun" (by decide) ⟨['i'], rfl⟩
      simp only [short, List.mem_cons, Prod.mk.injEq, List.not_mem_nil, or_false] at hmem
      rcases hmem with ⟨-, rfl⟩ | ⟨-, rfl⟩ | ⟨rfl, rfl⟩
      · exact absurd hlength (by decide)
      · exact absurd hlength (by decide)
      · cases htext
        exact hread
    · exact absurd ⟨['i'], rfl⟩ (hnone 7 "Jun" (by decide))
  · obtain ⟨-, -, hlenient⟩ := parse_text_longest tables .root .monthOfYear .short
      (c := lenient) rfl ['J', 'u', 'n', 'i']
    have hfull : store.Reads .full "Jun" 6 := ⟨_, rfl, by decide, by decide⟩
    rcases hlenient rfl with ⟨earlier, st, later, t, x, rest, hall, hreads, htext, hlongest, hread⟩ |
      ⟨hnone, -⟩
    · obtain ⟨hlength, hearlier⟩ := hlongest .full "Jun" 6 hfull ⟨['i'], rfl⟩
      obtain ⟨table, htable, hnodup, hmem⟩ := hreads
      cases st with
      | full =>
          cases htable
          simp only [List.mem_cons, Prod.mk.injEq, List.not_mem_nil, or_false] at hmem
          rcases hmem with ⟨-, rfl⟩ | ⟨rfl, rfl⟩
          · cases htext
          · cases htext
            exact hread
      | short =>
          cases htable
          have hfirst : TextStyle.full ∈ earlier := by
            cases earlier with
            | nil => cases hall
            | cons first earlier =>
                obtain rfl : TextStyle.full = first := (List.cons.inj hall).1
                exact List.mem_cons_self
          have hlength := hearlier hfirst
          simp only [short, List.mem_cons, Prod.mk.injEq, List.not_mem_nil, or_false] at hmem
          rcases hmem with ⟨-, rfl⟩ | ⟨-, rfl⟩ | ⟨-, rfl⟩ <;> exact absurd hlength (by decide)
      | narrow =>
          cases htable
          exact absurd hnodup (by decide)
    · exact absurd ⟨['i'], rfl⟩ (hnone .full "Jun" 6 hfull)

end Node

end DateTimeText
