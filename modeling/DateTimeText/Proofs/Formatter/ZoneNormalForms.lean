import DateTimeText.Proofs.Formatter.Zones

/-!
# Zones in normal form

A zone may be given in several ways, such as `Z`, `UTC`, `GMT+00:00` or `-00:00` for UTC. Whichever
is read, the zone is written as its id, and the id is read as the zone.
-/

namespace DateTimeText

/-- A zone is written as its id by a node or a formatter for zones, and read back from it. -/
structure ZoneId.RoundTrips (q : ZoneQuery) (s : Settings) (z : ZoneId) : Prop where
  print : ∀ v : Components, v.zone = some z → ∀ buffer,
    (Node.leaf (.zone q)).print s v buffer = (buffer ++ z.id, .ok true)
  parse : ∀ c, (Node.leaf (.zone q)).parse s c z.id =
    ({ c with current := c.current.withZone z }, .ok [])
  formatter : ∀ v : Components, v.zone = some z →
    (Formatter.ofZone q s).format v = .ok z.id ∧
      (Formatter.ofZone q s).parse z.id = .ok (Components.empty.withZone z)

variable {q : ZoneQuery} {s : Settings}

theorem ZoneQuery.find_of_zone (hq : q ≠ .region) {v : Components} {z : ZoneId}
    (hv : v.zone = some z) : q.find v = .ok (some z) := by
  cases q with
  | zone => rw [find, hv]
  | region => exact absurd rfl hq
  | zoneOrOffset => rw [find, hv]

theorem ZoneId.roundTrips_of_normal (hq : q ≠ .region) (hempty : "" ∉ s.zones)
    (hZ : "Z" ∉ s.zones) {z : ZoneId} (h : s.zones.Normal z) : z.RoundTrips q s := by
  have hread := ZoneQuery.read_id_of_normal hempty hZ h
  have hrender : ∀ v : Components, v.zone = some z →
      Leaf.render s v (.zone q) = .ok (some z.id) := by
    intro v hv
    rw [Leaf.render, ZoneQuery.find_of_zone hq hv]
    rfl
  constructor
  · intro v hv buffer
    exact Node.print_leaf (hrender v hv) buffer
  · intro c
    exact Node.parse_zone_of_ok hread
  · intro v hv
    exact ⟨Formatter.format_leaf (hrender v hv), Formatter.parse_ofZone_of_ok hread⟩

namespace Node

/-- All that is read is a zone, an offset within eighteen hours or a region, which is written as its
id and read back from it. An offset beyond eighteen hours is not read, and is left behind `UTC`, `UT`
or `GMT`. -/
theorem parse_zone_normal_form (hq : q ≠ .region) (hempty : "" ∉ s.zones) (hZ : "Z" ∉ s.zones) :
    (∀ (c after : Context) (text rest : List Char),
      (leaf (.zone q)).parse s c text = (after, .ok rest) →
        ∃ z : ZoneId, after = { c with current := c.current.withZone z } ∧
          (∀ offset, z = .offset offset → offset.total.natAbs ≤ 18 * 3600) ∧
          z.RoundTrips q s) ∧
    ∀ (c : Context) (text rest : List Char) (seconds : Int),
      OffsetForm.iso.read? .initial text = some (seconds, rest) → 18 * 3600 < seconds.natAbs →
        (leaf (.zone q)).parse s c text = (c, .error text) ∧
          ∀ start ∈ ["UTC", "UT", "GMT"],
            (leaf (.zone q)).parse s c (start.toList ++ text) =
              ({ c with current := c.current.withZone (.offset .utc) }, .ok text) := by
  refine ⟨?normal, ?far⟩
  case normal =>
    intro c after text rest h
    rw [parse_leaf, Leaf.read] at h
    cases hread : ZoneQuery.read s.zones text with
    | error stop =>
        rw [hread] at h
        cases h
    | ok r =>
        obtain ⟨z, rest', rfl, hz⟩ := ZoneQuery.exists_normal_of_read hread
        rw [hread] at h
        cases h
        refine ⟨z, rfl, ?_, z.roundTrips_of_normal hq hempty hZ hz⟩
        rintro offset -
        exact offset.natAbs_le
  case far =>
    intro c text rest seconds hread hfar
    have hnone := ZoneQuery.readOffset?_eq_none_of_far hread hfar
    have hne : seconds ≠ 0 := by omega
    obtain ⟨sign, tail, hsign, rfl⟩ := OffsetForm.exists_sign_of_read? hread hne
    constructor
    · apply parse_zone_of_error
      rw [ZoneQuery.read_sign hsign, hnone]
    · intro start hstart
      apply parse_zone_of_ok
      rw [ZoneQuery.read_utc_append hsign tail start hstart, ZoneQuery.readAfterUtc, hnone]

/-- Seconds that are zero are read behind `UT` and not written. -/
theorem parse_zone_normal_form_behind_ut :
    let s := { Settings.root with zones := ⟨["Etc/GMT", "Europe/Paris"], by decide⟩ }
    let z := ZoneId.offset ⟨-27000, by decide⟩
    (ZoneQuery.zone ≠ .region ∧ "" ∉ s.zones ∧ "Z" ∉ s.zones) ∧
      (leaf (.zone .zone)).parse s .initial "UT-07:30:00]".toList =
        ({ Context.initial with current := Components.empty.withZone z }, .ok [']']) ∧
      z.id = "-07:30".toList ∧ z.RoundTrips .zone s := by
  intro s z
  have hq : ZoneQuery.zone ≠ .region := nofun
  have hempty : "" ∉ s.zones := by decide
  have hZ : "Z" ∉ s.zones := by decide
  have hparse : (leaf (.zone .zone)).parse s .initial "UT-07:30:00]".toList =
      ({ Context.initial with current := Components.empty.withZone z }, .ok [']']) := rfl
  obtain ⟨z', hafter, -, hz⟩ := (parse_zone_normal_form hq hempty hZ).1 _ _ _ _ hparse
  have hzone : some z = some z' := congrArg (fun after => after.current.zone) hafter
  obtain rfl := Option.some.inj hzone
  exact ⟨⟨hq, hempty, hZ⟩, hparse, rfl, hz⟩

end Node

end DateTimeText
