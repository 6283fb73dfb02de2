import DateTimeText.Formatter
import DateTimeText.Proofs.Node.OffsetBytes

/-!
# Positions of a formatter

A formatter that reads from a character boundary on stops at a character boundary behind it and
within the text, and a position that is none is left alone. The index of an error counts the
characters in front of the place where reading stopped.
-/

namespace DateTimeText

/-- The characters in front of an end of a text have the bytes up to its place. -/
theorem byteLength_take_of_suffix {text rest : List Char} (h : rest <:+ text) :
    byteLength (text.take (text.length - rest.length)) = place text rest := by
  obtain ⟨front, rfl⟩ := h
  have hfront : (front ++ rest).length - rest.length = front.length := by
    rw [List.length_append]
    omega
  rw [hfront, List.take_left, place_append]

namespace Formatter

variable (f : Formatter) {text rest : List Char}

theorem suffix_of_parseStart_eq_ok {v : Components} (h : f.parseStart text = .ok (v, rest)) :
    rest <:+ text := by
  have hroot := Node.parseTo_stopsIn f.settings 1 f.root .initial text
  unfold parseStart at h
  split at h
  · rename_i hparse
    cases h
    rw [Node.parse] at hparse
    rwa [hparse] at hroot
  · cases h

theorem suffix_of_parseStart_eq_error (h : f.parseStart text = .error rest) : rest <:+ text := by
  have hroot := Node.parseTo_stopsIn f.settings 1 f.root .initial text
  unfold parseStart at h
  split at h
  · cases h
  · rename_i hparse
    cases h
    rw [Node.parse] at hparse
    rwa [hparse] at hroot

theorem parseAt_of_not_boundary {position : ParsePosition}
    (h : dropBytes? position.index text = none) :
    f.parseAt text position = (none, { position with errorIndex := some position.index }) := by
  rw [parseAt, h]

theorem parseAt_of_boundary {position : ParsePosition} {start : List Char}
    (h : dropBytes? position.index text = some start) :
    f.parseAt text position =
      match f.parseStart start with
      | .ok (v, rest) => (some v, { position with index := place text rest })
      | .error rest => (none, { position with errorIndex := some (place text rest) }) := by
  rw [parseAt, h]
  rfl

/-- What is read from the start of a text is read behind any other text. -/
theorem parseAt_of_parseStart {taken : List Char} {v : Components}
    (h : f.parseStart (taken ++ rest) = .ok (v, rest)) (before : List Char)
    (errorIndex : Option Nat) :
    f.parseAt (before ++ (taken ++ rest)) ⟨byteLength before, errorIndex⟩ =
      (some v, ⟨byteLength (before ++ taken), errorIndex⟩) := by
  have hplace : place (before ++ (taken ++ rest)) rest = byteLength (before ++ taken) := by
    rw [← List.append_assoc, place_append]
  rw [f.parseAt_of_boundary (dropBytes?_append before (taken ++ rest)), h]
  dsimp only
  rw [hplace]

/-- From a boundary on, each node at each depth, and a formatter, stops at a boundary that is not
before it nor behind the end; from anywhere else a formatter does not read. What numbers and region
ids take is there to be taken, and offsets are the same in the bytes of the text. -/
theorem parseAt_within (text : List Char) :
    (∀ (s : Settings) (depth : Nat) (node : Node) (c : Context) (n : Nat) (start : List Char),
      dropBytes? n text = some start →
        ∃ stop rest, n ≤ stop ∧ stop ≤ byteLength text ∧ dropBytes? stop text = some rest ∧
          ((node.parseTo s depth c start).2 = .ok rest ∨
            (node.parseTo s depth c start).2 = .error rest)) ∧
    (∀ (n : Numeral) (s : Symbols) (strict : Bool) (sign : Option Numeral.Sign)
      (start body : List Char) (r : Reading), n.readDigits s strict sign start body = .ok r →
        ∃ digits, body = digits ++ r.rest ∧ ∀ c ∈ digits, (s.digit? c).isSome) ∧
    (∀ (zones : ZoneIds) (start id : List Char), zones.longest? start = some id → id <+: start) ∧
    (∀ (p : OffsetPattern) (n : Nat) (start : List Char), dropBytes? n text = some start →
      OffsetForm.signedAt? (utf8 text) p n =
        (OffsetForm.readSigned? p start).map fun (total, rest) =>
          (total, byteLength text - byteLength rest)) ∧
    (∀ position : ParsePosition,
      match dropBytes? position.index text with
      | none =>
        f.parseAt text position = (none, { position with errorIndex := some position.index })
      | some _ =>
        ∃ stop rest, position.index ≤ stop ∧ stop ≤ byteLength text ∧
          dropBytes? stop text = some rest ∧
          ((∃ v, f.parseAt text position = (some v, { position with index := stop })) ∨
            f.parseAt text position = (none, { position with errorIndex := some stop }))) ∧
    ∀ e, f.parse text = .error e →
      e.index ≤ text.length ∧
        match e with
        | .invalidValue _ _ => e.index = 0
        | .unparsedText _ i => byteLength (text.take i) = (f.parseAt text ⟨0, none⟩).2.index
        | .mismatch _ i =>
          some (byteLength (text.take i)) = (f.parseAt text ⟨0, none⟩).2.errorIndex := by
  refine ⟨?nodes, ?digits, ?regions, ?offsets, ?positions, ?errors⟩
  case nodes =>
    intro s depth node c n start hstart
    obtain ⟨hsuffix, rfl⟩ := dropBytes?_eq_some_iff.1 hstart
    have hnode := Node.parseTo_stopsIn s depth node c start
    rcases hparse : (node.parseTo s depth c start).2 with rest | rest
    · rw [hparse] at hnode
      exact ⟨place text rest, rest, place_le_place hnode, place_le_byteLength text rest,
        dropBytes?_place (List.IsSuffix.trans hnode hsuffix), .inr rfl⟩
    · rw [hparse] at hnode
      exact ⟨place text rest, rest, place_le_place hnode, place_le_byteLength text rest,
        dropBytes?_place (List.IsSuffix.trans hnode hsuffix), .inl rfl⟩
  case digits =>
    intro n s strict sign start body r h
    exact n.readDigits_eq_append s strict sign h
  case regions =>
    intro zones start id h
    exact ZoneIds.prefix_of_longest? h
  case offsets =>
    intro p n start hstart
    obtain ⟨hsuffix, rfl⟩ := dropBytes?_eq_some_iff.1 hstart
    exact OffsetForm.signedAt?_place p hsuffix
  case positions =>
    intro position
    split
    · rename_i hnone
      exact f.parseAt_of_not_boundary hnone
    rename_i start hstart
    obtain ⟨hsuffix, hindex⟩ := dropBytes?_eq_some_iff.1 hstart
    have hstop : ∀ rest, rest <:+ start → position.index ≤ place text rest ∧
        place text rest ≤ byteLength text ∧ dropBytes? (place text rest) text = some rest := by
      intro rest hrest
      rw [hindex]
      exact ⟨place_le_place hrest, place_le_byteLength text rest,
        dropBytes?_place (hrest.trans hsuffix)⟩
    rw [f.parseAt_of_boundary hstart]
    rcases hparse : f.parseStart start with rest | ⟨v, rest⟩
    · obtain ⟨hlow, hhigh, hrest⟩ := hstop rest (f.suffix_of_parseStart_eq_error hparse)
      exact ⟨place text rest, rest, hlow, hhigh, hrest, .inr rfl⟩
    · obtain ⟨hlow, hhigh, hrest⟩ := hstop rest (f.suffix_of_parseStart_eq_ok hparse)
      exact ⟨place text rest, rest, hlow, hhigh, hrest, .inl ⟨v, rfl⟩⟩
  case errors =>
    intro e he
    have hzero : f.parseAt text ⟨0, none⟩ = _ := f.parseAt_of_boundary (dropBytes?_zero text)
    rw [hzero]
    rw [parse] at he
    rcases hparse : f.parseStart text with rest | ⟨v, rest⟩
    · rw [hparse] at he
      cases he
      have hsuffix := f.suffix_of_parseStart_eq_error hparse
      exact ⟨Nat.sub_le _ _, congrArg some (byteLength_take_of_suffix hsuffix)⟩
    · rw [hparse] at he
      have hsuffix := f.suffix_of_parseStart_eq_ok hparse
      rcases rest with _ | ⟨c, rest⟩
      · dsimp only at he
        split at he
        · cases he
        · cases he
          exact ⟨Nat.zero_le _, rfl⟩
      · cases he
        exact ⟨Nat.sub_le _ _, byteLength_take_of_suffix hsuffix⟩

end Formatter

end DateTimeText
