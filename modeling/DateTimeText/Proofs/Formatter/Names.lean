import DateTimeText.Formatter.Iso
import DateTimeText.Proofs.Formatter.Instants
import DateTimeText.Proofs.Node.Names

/-!
# What a formatter reads and writes

A formatter without localized patterns touches nothing but what its nodes name: what it has read has
no other field, no zone and no chronology that no node stands for, and values that agree on what the
nodes name are written alike.
-/

namespace DateTimeText

/-- Components with no field, zone or chronology but those that a tree names. -/
structure Node.Names (node : Node) (v : Components) : Prop where
  field : ∀ f x, v.field f = some x → ∃ part ∈ node.subnodes, f ∈ part.fields
  zone : ∀ z, v.zone = some z → ∃ q, .leaf (.zone q) ∈ node.subnodes
  chronology : ∀ c, v.chronology = some c → ∃ style, .leaf (.chronology style) ∈ node.subnodes

/-- All that was added to nothing is named. -/
theorem Node.names_of_adds {node : Node} {v : Components}
    (h : Components.empty.Adds node.subnodes v) : node.Names v where
  field f x hf := (h.field f x hf).resolve_left nofun
  zone z hz := (h.zone z hz).resolve_left nofun
  chronology c hc := (h.chronology c hc).resolve_left nofun

namespace Formatter

variable {f : Formatter} {text rest : List Char} {v : Components}

theorem names_of_parseStart (hf : ∀ l, .localized l ∉ f.root.subnodes)
    (h : f.parseStart text = .ok (v, rest)) : f.root.Names v := by
  unfold parseStart at h
  split at h
  · rename_i hread
    cases h
    exact Node.names_of_adds (Node.adds_of_parseTo 1 hf hread)
  · cases h

/-- What is read is named, and what is not named is not written. In particular neither the date and
time of day that an instant is read from nor the offset inside a zone are found in what is read. -/
theorem parse_names_and_format_congr (f : Formatter) (hf : ∀ l, .localized l ∉ f.root.subnodes) :
    (∀ text v, f.parse text = .ok v → f.root.Names v) ∧
    (∀ text position v, (f.parseAt text position).1 = some v → f.root.Names v) ∧
    ∀ v w, f.root.AgreeOn v w →
      f.format v = f.format w ∧ ∀ buffer, f.formatTo v buffer = f.formatTo w buffer := by
  refine ⟨?parse, ?parseAt, ?format⟩
  case parse =>
    intro text v h
    obtain ⟨⟨after, hread, rfl⟩, -⟩ := parse_eq_ok_iff.1 h
    have hstart : f.parseStart text = .ok (after.current, []) := by
      rw [parseStart_eq, hread]
    exact names_of_parseStart hf hstart
  case parseAt =>
    intro text position v h
    rw [parseAt] at h
    split at h
    · cases h
    · rename_i start hstart
      split at h
      · rename_i hread
        cases h
        exact names_of_parseStart hf hread
      · cases h
  case format =>
    intro v w h
    have hrender : f.root.render f.settings v = f.root.render f.settings w := h.render_eq hf
    refine ⟨?_, fun buffer => ?_⟩
    · rw [format_eq, format_eq, hrender]
    · rw [formatTo_eq, formatTo_eq, hrender]

/-- An instant and a zone with an offset: the year, the hour and the offset do not come out. -/
theorem parse_names_and_format_congr_instant_zone :
    (∀ l, .localized l ∉
      (ofNodes [.instant, Node.literal [' '], .leaf (.zone .zoneOrOffset)]).root.subnodes) ∧
    ∃ v, (ofNodes [.instant, Node.literal [' '], .leaf (.zone .zoneOrOffset)]).parse
        "2011-12-03T10:15:30Z UTC+01:00".toList = .ok v ∧
      (ofNodes [.instant, Node.literal [' '], .leaf (.zone .zoneOrOffset)]).root.Names v ∧
      v.field .year = none ∧ v.field .hourOfDay = none ∧ v.field .offsetSeconds = none := by
  have hnone : ∀ l, .localized l ∉
      (ofNodes [.instant, Node.literal [' '], .leaf (.zone .zoneOrOffset)]).root.subnodes := by
    intro l
    simp [ofNodes, root, Node.subnodes, Node.subnodesAll, Node.literal]
  have hparse : (ofNodes [.instant, Node.literal [' '], .leaf (.zone .zoneOrOffset)]).parse
      "2011-12-03T10:15:30Z UTC+01:00".toList =
        .ok ((Components.ofInstant 1322907330 0).withZone (.offset ⟨3600, by decide⟩)) := by
    rfl
  exact ⟨hnone, _, hparse, (parse_names_and_format_congr _ hnone).1 _ _ hparse, rfl, rfl, rfl⟩

end Formatter

end DateTimeText
