import DateTimeText.Proofs.Formatter.Instants
import DateTimeText.Proofs.Formatter.Positions
import DateTimeText.Proofs.Node.Zones

/-!
# Zones written and read back

A region is written as its id. Read back, the id stands for the region again exactly if it does not
start with `UT` or `GMT`, since offsets are read before regions.
-/

namespace DateTimeText

namespace Formatter

/-- The formatter of a zone and nothing else. -/
def ofZone (q : ZoneQuery) (s : Settings) : Formatter :=
  ⟨(Builder.new.appendZone q).nodes, s⟩

variable {q : ZoneQuery} {s : Settings} {text rest : List Char}

theorem parseStart_ofZone_of_ok {z : ZoneId}
    (h : ZoneQuery.read s.zones text = .ok (.ofZone z rest)) :
    (ofZone q s).parseStart text = .ok (Components.empty.withZone z, rest) :=
  parseStart_node_of_ok (Node.parse_zone_of_ok h)

theorem parseStart_ofZone_of_error (h : ZoneQuery.read s.zones text = .error rest) :
    (ofZone q s).parseStart text = .error rest :=
  parseStart_node_of_error (Node.parse_zone_of_error h)

/-- A text that does not start like an offset is read as what comparing it with each id finds: in
any context, and from any position on. The tree that is searched for that holds every id. -/
theorem parse_zone_finds (hne : text ≠ [])
    (hstart : ∀ start ∈ ["+", "-", "UT", "GMT"], ¬ start.toList <+: text) :
    (∀ id ∈ s.zones, (IdTree.ofList (s.zones.ids.map String.toList)).Holds id.toList) ∧
    (∃ found, s.zones.Finds text found) ∧
    ∀ found, s.zones.Finds text found → ∀ q : ZoneQuery,
      (∀ c, (Node.leaf (.zone q)).parse s c text =
        match found with
        | some (z, rest) => ({ c with current := c.current.withZone z }, .ok rest)
        | none => (c, .error text)) ∧
      ∀ whole (position : ParsePosition), dropBytes? position.index whole = some text →
        (ofZone q s).parseAt whole position =
          match found with
          | some (z, rest) =>
            (some (Components.empty.withZone z), { position with index := place whole rest })
          | none => (none, { position with errorIndex := some position.index }) := by
  refine ⟨?held, ?total, ?reads⟩
  case held =>
    intro id hid
    exact IdTree.holds_ofList (List.mem_map_of_mem hid)
  case total =>
    obtain ⟨found, hfound, -⟩ := ZoneQuery.exists_finds_of_readRegion s.zones text
    exact ⟨found, hfound⟩
  case reads =>
    intro found hfound q
    obtain ⟨found', hfound', hread⟩ := ZoneQuery.exists_finds_of_readRegion s.zones text
    obtain rfl := hfound.unique hfound'
    rw [← ZoneQuery.read_eq_readRegion hne hstart] at hread
    cases found with
    | some result =>
        refine ⟨fun c => Node.parse_zone_of_ok hread, fun whole position hwhole => ?_⟩
        rw [parseAt_of_boundary _ hwhole, parseStart_ofZone_of_ok hread]
    | none =>
        refine ⟨fun c => Node.parse_zone_of_error hread, fun whole position hwhole => ?_⟩
        rw [parseAt_of_boundary _ hwhole, parseStart_ofZone_of_error hread]
        obtain ⟨-, hindex⟩ := dropBytes?_eq_some_iff.1 hwhole
        rw [hindex]

/-- Of the two ids that the text starts with the longer one is read. -/
theorem parse_zone_finds_nested :
    let zones : ZoneIds := ⟨["Etc", "Etc/GMT", "Europe/Paris"], by decide⟩
    ("Etc/GMT+5".toList ≠ [] ∧
      ∀ start ∈ ["+", "-", "UT", "GMT"], ¬ start.toList <+: "Etc/GMT+5".toList) ∧
    ((ofZone .zone { Settings.root with zones := zones }).parseAt "at Etc/GMT+5".toList ⟨3, none⟩ =
      (some (Components.empty.withZone (.region "Etc/GMT")), ⟨10, none⟩)) := by
  intro zones
  have hne : "Etc/GMT+5".toList ≠ [] := by decide
  have hstart : ∀ start ∈ ["+", "-", "UT", "GMT"], ¬ start.toList <+: "Etc/GMT+5".toList := by
    decide
  have hlongest : zones.IsLongest "Etc/GMT+5".toList "Etc/GMT" :=
    ⟨by decide, by decide, by decide⟩
  have hreads := (parse_zone_finds (s := { Settings.root with zones := zones }) hne hstart).2.2 _
    (.region hlongest) .zone
  exact ⟨⟨hne, hstart⟩, hreads.2 "at Etc/GMT+5".toList ⟨3, none⟩ (by decide)⟩

/-! ### Round trips -/

theorem format_ofZone {v : Components} {id : String} (hv : v.zone = some (.region id)) :
    (ofZone q s).format v = .ok id.toList := by
  have hfind : q.find v = .ok (some (.region id)) := by
    cases q with
    | zone => rw [ZoneQuery.find, hv]
    | region =>
        rw [ZoneQuery.find, hv]
        rfl
    | zoneOrOffset => rw [ZoneQuery.find, hv]
  apply format_leaf
  rw [Leaf.render, hfind]
  rfl

theorem parse_ofZone_of_ok {z : ZoneId} (h : ZoneQuery.read s.zones text = .ok (.ofZone z [])) :
    (ofZone q s).parse text = .ok (Components.empty.withZone z) := by
  apply parse_of_parseStart (parseStart_ofZone_of_ok h)
  rw [Components.checkRanges_eq_ok_iff]
  intro f value hvalue
  cases hvalue

theorem parse_ofZone_of_offset {offset : UtcOffset}
    (h : ZoneQuery.read s.zones text = .ok (.ofZone (.offset offset) rest)) (id : String) :
    (ofZone q s).parse text ≠ .ok (Components.empty.withZone (.region id)) := by
  cases rest with
  | nil =>
      rw [parse_ofZone_of_ok h]
      intro hzone
      cases congrArg Components.zone (Except.ok.inj hzone)
  | cons c rest =>
      rw [parse, parseStart_ofZone_of_ok h]
      rintro ⟨⟩

/-- The id of a region is written, and read back as the region exactly if it does not start with
`UT` or `GMT`. -/
theorem parse_format_region_iff (q : ZoneQuery) {id : String} (hid : id ∈ s.zones)
    (hne : id ≠ "") (hsign : ∀ sign ∈ ["+", "-"], ¬ sign.toList <+: id.toList) {v : Components}
    (hv : v.zone = some (.region id)) :
    (ofZone q s).format v = .ok id.toList ∧
      ((ofZone q s).parse id.toList = .ok (Components.empty.withZone (.region id)) ↔
        ¬ "UT".toList <+: id.toList ∧ ¬ "GMT".toList <+: id.toList) := by
  refine ⟨format_ofZone hv, ?_⟩
  constructor
  · intro hparse
    rw [← not_or]
    intro hstart
    obtain ⟨offset, rest, hread⟩ := ZoneQuery.exists_read_eq_offset hstart
    exact parse_ofZone_of_offset hread id hparse
  · rintro ⟨hUT, hGMT⟩
    apply parse_ofZone_of_ok
    apply ZoneQuery.read_region_id hid
    · rwa [Ne, String.toList_eq_nil_iff]
    · intro start hstart
      simp only [List.mem_cons, List.not_mem_nil, or_false] at hstart
      rcases hstart with rfl | rfl | rfl | rfl
      · exact hsign "+" (by simp)
      · exact hsign "-" (by simp)
      · exact hUT
      · exact hGMT

theorem parse_format_region_iff_nested :
    let zones : ZoneIds := ⟨["Zulu", "Zulu/Natal"], by decide⟩
    let f := ofZone .region { Settings.root with zones := zones }
    let v : Components := (Components.empty.set .year 2011).withZone (.region "Zulu/Natal")
    ("Zulu/Natal" ∈ zones ∧ "Zulu/Natal" ≠ "" ∧
      (∀ sign ∈ ["+", "-"], ¬ sign.toList <+: "Zulu/Natal".toList) ∧
        v.zone = some (.region "Zulu/Natal")) ∧
    f.format v = .ok "Zulu/Natal".toList ∧
      f.parse "Zulu/Natal".toList = .ok (Components.empty.withZone (.region "Zulu/Natal")) := by
  intro zones f v
  have hid : "Zulu/Natal" ∈ zones := by decide
  have hsign : ∀ sign ∈ ["+", "-"], ¬ sign.toList <+: "Zulu/Natal".toList := by decide
  obtain ⟨hformat, hparse⟩ := parse_format_region_iff (s := { Settings.root with zones := zones })
    .region hid (by decide) hsign (v := v) rfl
  exact ⟨⟨hid, by decide, hsign, rfl⟩, hformat, hparse.2 ⟨by decide, by decide⟩⟩

/-- The region `GMT` is written, and its id is read as the offset of UTC. -/
theorem region_gmt_read_as_offset :
    let zones : ZoneIds := ⟨["Europe/London", "GMT"], by decide⟩
    let f := ofZone .zone { Settings.root with zones := zones }
    let v := Components.empty.withZone (.region "GMT")
    "GMT" ∈ zones ∧ "GMT" ≠ "" ∧ (∀ sign ∈ ["+", "-"], ¬ sign.toList <+: "GMT".toList) ∧
      f.format v = .ok "GMT".toList ∧
      f.parse "GMT".toList = .ok (Components.empty.withZone (.offset .utc)) ∧
      f.parse "GMT".toList ≠ .ok v := by
  intro zones f v
  have hparse : f.parse "GMT".toList = .ok (Components.empty.withZone (.offset .utc)) :=
    parse_ofZone_of_ok rfl
  refine ⟨by decide, by decide, by decide, format_ofZone rfl, hparse, ?_⟩
  rw [hparse]
  intro hzone
  cases congrArg Components.zone (Except.ok.inj hzone)

end Formatter

end DateTimeText
