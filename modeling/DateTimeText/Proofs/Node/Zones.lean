import DateTimeText.Proofs.Node.OffsetText
import DateTimeText.Proofs.Zone.IdTree

/-!
# Zones that are read

A text that does not start like an offset is read as the longest region id that it starts with, and
the letter `Z` stands for UTC only if there is none. A text that starts with `UT` or `GMT` is read
as an offset, whatever ids there are. The id of each zone that is read is read as this zone, if
neither the letter `Z` nor the empty text is the id of a region.
-/

namespace DateTimeText

/-- What comparing a text with each id of a set finds at its start: a zone and the text behind it,
or nothing. -/
inductive ZoneIds.Finds (zones : ZoneIds) (text : List Char) :
    Option (ZoneId × List Char) → Prop
  | region {id : String} (h : zones.IsLongest text id) :
    Finds zones text (some (.region id, text.drop id.toList.length))
  | utc {rest : List Char} (hnone : ∀ id ∈ zones, ¬ id.toList <+: text)
    (htext : text = 'Z' :: rest) : Finds zones text (some (.offset .utc, rest))
  | nothing (hnone : ∀ id ∈ zones, ¬ id.toList <+: text) (htext : text.head? ≠ some 'Z') :
    Finds zones text none

theorem ZoneIds.Finds.unique {zones : ZoneIds} {text : List Char}
    {found other : Option (ZoneId × List Char)} (h : zones.Finds text found)
    (h' : zones.Finds text other) : found = other := by
  cases h with
  | region hlongest =>
      cases h' with
      | region hlongest' => rw [hlongest.unique hlongest']
      | utc hnone _ => exact absurd hlongest.isPrefix (hnone _ hlongest.mem)
      | nothing hnone _ => exact absurd hlongest.isPrefix (hnone _ hlongest.mem)
  | utc hnone htext =>
      cases h' with
      | region hlongest => exact absurd hlongest.isPrefix (hnone _ hlongest.mem)
      | utc _ htext' =>
          rw [htext] at htext'
          cases htext'
          rfl
      | nothing _ hhead => exact absurd (by rw [htext, List.head?_cons]) hhead
  | nothing hnone hhead =>
      cases h' with
      | region hlongest => exact absurd hlongest.isPrefix (hnone _ hlongest.mem)
      | utc _ htext => exact absurd (by rw [htext, List.head?_cons]) hhead
      | nothing _ _ => rfl

namespace ZoneQuery

variable {zones : ZoneIds} {text : List Char}

/-- The search in the tree finds what comparing the text with each id finds. -/
theorem exists_finds_of_readRegion (zones : ZoneIds) (text : List Char) :
    ∃ found, zones.Finds text found ∧ readRegion zones text =
      match found with
      | some (z, rest) => .ok (.ofZone z rest)
      | none => .error text := by
  unfold readRegion
  cases hlongest : zones.longest? text with
  | some id =>
      refine ⟨_, .region (ZoneIds.isLongest_of_longest? hlongest), ?_⟩
      simp only [String.toList_ofList]
  | none =>
      have hnone := ZoneIds.longest?_eq_none hlongest
      dsimp only
      split
      · rename_i rest
        exact ⟨_, .utc hnone rfl, rfl⟩
      · rename_i hZ
        refine ⟨none, .nothing hnone fun hhead => ?_, rfl⟩
        obtain ⟨rest, rfl⟩ := List.head?_eq_some_iff.1 hhead
        exact hZ rest rfl

/-- A text that does not start like an offset is looked up among the ids. -/
theorem read_eq_readRegion (hne : text ≠ [])
    (hstart : ∀ start ∈ ["+", "-", "UT", "GMT"], ¬ start.toList <+: text) :
    read zones text = readRegion zones text := by
  unfold read
  split
  · exact absurd rfl hne
  · rename_i rest
    exact absurd (List.prefix_append ['U', 'T'] ('C' :: rest)) (hstart "UT" (by simp))
  · rename_i rest _
    exact absurd (List.prefix_append ['U', 'T'] rest) (hstart "UT" (by simp))
  · rename_i rest
    exact absurd (List.prefix_append ['G', 'M', 'T'] rest) (hstart "GMT" (by simp))
  · rename_i c rest _ _ _
    rw [if_neg]
    rintro (rfl | rfl)
    · exact hstart "+" (by simp) (List.prefix_append ['+'] rest)
    · exact hstart "-" (by simp) (List.prefix_append ['-'] rest)

/-- An offset is read as far as the ISO form reads it, if it lies within eighteen hours. -/
theorem readOffset?_eq_some_iff {z : ZoneId} {rest : List Char} :
    readOffset? text = some (z, rest) ↔
      ∃ offset : UtcOffset, z = .offset offset ∧
        OffsetForm.iso.read? .initial text = some (offset.total, rest) := by
  unfold readOffset? UtcOffset.ofSeconds
  constructor
  · intro h
    split at h
    · rename_i seconds after hread
      split at h
      · rename_i offset hoffset
        cases h
        split at hoffset
        · cases hoffset
          exact ⟨_, rfl, hread⟩
        · cases hoffset
      · cases h
    · cases h
  · rintro ⟨offset, rfl, hread⟩
    rw [hread]
    dsimp only
    rw [dif_pos offset.natAbs_le]

theorem readOffset?_eq_none_of_far {seconds : Int} {rest : List Char}
    (hread : OffsetForm.iso.read? .initial text = some (seconds, rest))
    (hfar : maxOffset < seconds.natAbs) : readOffset? text = none := by
  rw [Option.eq_none_iff_forall_ne_some]
  rintro ⟨z, after⟩ h
  obtain ⟨offset, -, hoffset⟩ := readOffset?_eq_some_iff.1 h
  rw [hread] at hoffset
  cases hoffset
  exact absurd offset.natAbs_le (Nat.not_le_of_lt hfar)

theorem read_sign {sign : Char} (hsign : sign = '+' ∨ sign = '-') (tail : List Char) :
    read zones (sign :: tail) =
      match readOffset? (sign :: tail) with
      | some (z, rest) => .ok (.ofZone z rest)
      | none => .error (sign :: tail) := by
  rcases hsign with rfl | rfl
  · rfl
  · rfl

theorem read_utc_append {sign : Char} (hsign : sign = '+' ∨ sign = '-') (tail : List Char) :
    ∀ start ∈ ["UTC", "UT", "GMT"],
      read zones (start.toList ++ sign :: tail) = .ok (readAfterUtc (sign :: tail)) := by
  intro start hstart
  simp only [List.mem_cons, List.not_mem_nil, or_false] at hstart
  rcases hsign with rfl | rfl
  · rcases hstart with rfl | rfl | rfl
    · rfl
    · rfl
    · rfl
  · rcases hstart with rfl | rfl | rfl
    · rfl
    · rfl
    · rfl

theorem exists_readAfterUtc_eq (text : List Char) :
    ∃ offset rest, readAfterUtc text = .ofZone (.offset offset) rest := by
  unfold readAfterUtc
  split
  · rename_i z rest h
    obtain ⟨offset, rfl, -⟩ := readOffset?_eq_some_iff.1 h
    exact ⟨offset, rest, rfl⟩
  · exact ⟨.utc, text, rfl⟩

/-- A text that starts with `UT` or `GMT` is an offset, even if it is an id. -/
theorem exists_read_eq_offset (h : "UT".toList <+: text ∨ "GMT".toList <+: text) :
    ∃ offset rest, read zones text = .ok (.ofZone (.offset offset) rest) := by
  unfold read
  split
  · rcases h with h | h <;> cases List.prefix_nil.1 h
  · rename_i rest
    obtain ⟨offset, after, hafter⟩ := exists_readAfterUtc_eq rest
    exact ⟨offset, after, congrArg Except.ok hafter⟩
  · rename_i rest _
    obtain ⟨offset, after, hafter⟩ := exists_readAfterUtc_eq rest
    exact ⟨offset, after, congrArg Except.ok hafter⟩
  · rename_i rest
    obtain ⟨offset, after, hafter⟩ := exists_readAfterUtc_eq rest
    exact ⟨offset, after, congrArg Except.ok hafter⟩
  · rename_i c rest hUTC hUT hGMT
    rcases h with ⟨after, h⟩ | ⟨after, h⟩
    · obtain ⟨rfl, rfl⟩ := List.cons.inj h
      exact absurd rfl (hUT after rfl)
    · obtain ⟨rfl, rfl⟩ := List.cons.inj h
      exact absurd rfl (hGMT after rfl)

/-! ### Normal forms -/

end ZoneQuery

/-- A zone that its id stands for: an offset, or a region that is known and whose id does not start
like an offset. -/
inductive ZoneIds.Normal (zones : ZoneIds) : ZoneId → Prop
  | offset (offset : UtcOffset) : Normal zones (.offset offset)
  | region {id : String} (hid : id ∈ zones)
    (hstart : ∀ start ∈ ["+", "-", "UT", "GMT"], ¬ start.toList <+: id.toList) :
    Normal zones (.region id)

namespace ZoneQuery

/-- All that is read is a zone that its id stands for. -/
theorem exists_normal_of_read {r : Reading} (h : read zones text = .ok r) :
    ∃ z rest, r = .ofZone z rest ∧ zones.Normal z := by
  by_cases hutc : "UT".toList <+: text ∨ "GMT".toList <+: text
  · have hoffset : ∃ offset rest, read zones text = .ok (.ofZone (.offset offset) rest) :=
      exists_read_eq_offset hutc
    obtain ⟨offset, rest, hread⟩ := hoffset
    rw [hread] at h
    cases h
    exact ⟨_, rest, rfl, .offset offset⟩
  by_cases hsign : ∃ sign tail, (sign = '+' ∨ sign = '-') ∧ text = sign :: tail
  · obtain ⟨sign, tail, hsign, rfl⟩ := hsign
    rw [read_sign hsign] at h
    split at h
    · rename_i z rest hoffset
      obtain ⟨offset, rfl, -⟩ := readOffset?_eq_some_iff.1 hoffset
      cases h
      exact ⟨_, rest, rfl, .offset offset⟩
    · cases h
  have hne : text ≠ [] := by
    rintro rfl
    cases h
  have hstart : ∀ start ∈ ["+", "-", "UT", "GMT"], ¬ start.toList <+: text := by
    intro start hmem hfront
    simp only [List.mem_cons, List.not_mem_nil, or_false] at hmem
    rcases hmem with rfl | rfl | rfl | rfl
    · obtain ⟨tail, rfl⟩ := hfront
      exact hsign ⟨'+', tail, .inl rfl, rfl⟩
    · obtain ⟨tail, rfl⟩ := hfront
      exact hsign ⟨'-', tail, .inr rfl, rfl⟩
    · exact hutc (.inl hfront)
    · exact hutc (.inr hfront)
  rw [read_eq_readRegion hne hstart] at h
  obtain ⟨found, hfound, hread⟩ := exists_finds_of_readRegion zones text
  rw [hread] at h
  cases hfound with
  | region hlongest =>
      cases h
      -- What the id starts with, the text starts with too.
      refine ⟨_, _, rfl, .region hlongest.mem fun start hmem hfront => ?_⟩
      exact hstart start hmem (hfront.trans hlongest.isPrefix)
  | utc _ _ =>
      cases h
      exact ⟨_, _, rfl, .offset .utc⟩
  | nothing _ _ => cases h

/-- A text that is an id is read to its end, unless it starts like an offset. -/
theorem read_region_id {id : String} (hid : id ∈ zones) (hne : id.toList ≠ [])
    (hstart : ∀ start ∈ ["+", "-", "UT", "GMT"], ¬ start.toList <+: id.toList) :
    read zones id.toList = .ok (.ofZone (.region id) []) := by
  have hlongest : zones.IsLongest id.toList id :=
    ⟨hid, List.prefix_rfl, fun _ _ hfront => hfront.length_le⟩
  obtain ⟨found, hfound, hread⟩ := exists_finds_of_readRegion zones id.toList
  obtain rfl := hfound.unique (.region hlongest)
  rw [read_eq_readRegion hne hstart, hread, List.drop_length]

theorem read_z (hempty : "" ∉ zones) (hZ : "Z" ∉ zones) :
    read zones ['Z'] = .ok (.ofZone (.offset .utc) []) := by
  have hnone : ∀ id ∈ zones, ¬ id.toList <+: ['Z'] := by
    intro id hid hfront
    rcases List.prefix_cons_iff.1 hfront with h | ⟨tail, h, htail⟩
    · rw [String.toList_eq_nil_iff] at h
      exact hempty (h ▸ hid)
    · rw [List.prefix_nil] at htail
      have hlist : id.toList = "Z".toList := by
        rw [h, htail]
        rfl
      rw [String.toList_inj] at hlist
      exact hZ (hlist ▸ hid)
  obtain ⟨found, hfound, hread⟩ := exists_finds_of_readRegion zones ['Z']
  obtain rfl := hfound.unique (.utc hnone rfl)
  exact hread

theorem readOffset?_id (offset : UtcOffset) :
    readOffset? offset.id = some (.offset offset, []) := by
  have hseconds : OffsetForm.iso.pattern.seconds ≠ .absent := by decide
  have hread := OffsetForm.read?_render (OffsetForm.tellsZero_of_zeroText rfl .initial)
    offset.natAbs_total_lt offset.render_iso OffsetForm.endsOffset_nil
  rw [List.append_nil, OffsetForm.kept_of_seconds hseconds] at hread
  exact readOffset?_eq_some_iff.2 ⟨offset, rfl, hread⟩

/-- The id of a zone in normal form is read as the zone, to its end. -/
theorem read_id_of_normal (hempty : "" ∉ zones) (hZ : "Z" ∉ zones) {z : ZoneId}
    (h : zones.Normal z) : read zones z.id = .ok (.ofZone z []) := by
  cases h with
  | offset offset =>
      have hread := readOffset?_id offset
      rcases offset.id_eq_z_or_sign with ⟨rfl, hid⟩ | ⟨sign, tail, hsign, hid⟩
      · exact read_z hempty hZ
      · rw [hid] at hread
        rw [ZoneId.id, hid, read_sign hsign, hread]
  | region hid hstart =>
      apply read_region_id hid _ hstart
      intro h
      rw [String.toList_eq_nil_iff] at h
      exact hempty (h ▸ hid)

end ZoneQuery

namespace Node

variable {s : Settings} {q : ZoneQuery} {c : Context} {text rest : List Char}

theorem parse_zone_of_ok {z : ZoneId} (h : ZoneQuery.read s.zones text = .ok (.ofZone z rest)) :
    parse s (.leaf (.zone q)) c text = ({ c with current := c.current.withZone z }, .ok rest) := by
  rw [parse_leaf, Leaf.read, h]
  rfl

theorem parse_zone_of_error (h : ZoneQuery.read s.zones text = .error rest) :
    parse s (.leaf (.zone q)) c text = (c, .error rest) := by
  rw [parse_leaf, Leaf.read, h]
  rfl

end Node

end DateTimeText
