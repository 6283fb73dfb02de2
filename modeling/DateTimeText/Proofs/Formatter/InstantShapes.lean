import DateTimeText.Proofs.Date.Succession
import DateTimeText.Proofs.Formatter.Instants
import DateTimeText.Proofs.Formatter.Positions
import DateTimeText.Proofs.Node.InstantReading

/-!
# Instants in a text

An instant is taken from any place of a text only if the text goes on there with a date and time of
day that exist, and it is their second. If the date or the time of day does not exist, the instant
is refused, since the text has no other shape.
-/

namespace DateTimeText.Formatter

variable {s : Settings} {text rest : List Char}

theorem parseStart_instant_eq_ok {v : Components}
    (h : parseStart ⟨[.instant], s⟩ text = .ok (v, rest)) :
    ∃ t : Instant.Shape, text = t.chars s.symbols ++ rest ∧ t.dateTime.InCalendar ∧
      v = .ofInstant (t.dateTime.toEpochSeconds 0) t.nano := by
  rw [parseStart_eq_read] at h
  rcases hread : (root ⟨[.instant], s⟩).read s .initial .empty text with ⟨after, result⟩
  rw [hread] at h
  obtain rfl : result = .ok (v, rest) := h
  rw [root, Node.read, Node.readTo, Node.readWith] at hread
  obtain ⟨mode, u, middle, hinstant, hdone⟩ := Node.readAllWith_cons_eq_ok hread
  rw [Node.readAllWith] at hdone
  cases hdone
  exact Node.read_instant_eq_ok hinstant

/-- An instant that is read from a position on stands there as a date and time of day that exist,
whose second and nanosecond are all that is read, and it ends behind them. A text with the shape of
an instant is not read if its date or its time of day does not exist. -/
theorem parseAt_instant (s : Settings) :
    (∀ (text : List Char) (position after : ParsePosition) (v : Components),
      parseAt ⟨[.instant], s⟩ text position = (some v, after) →
        ∃ (front rest : List Char) (t : Instant.Shape) (seconds : Int),
          text = front ++ t.chars s.symbols ++ rest ∧ position.index = byteLength front ∧
          after = { position with index := byteLength (front ++ t.chars s.symbols) } ∧
          DateTime.IsSecond seconds t.dateTime ∧ v = .ofInstant seconds t.nano) ∧
    (s.symbols.Apart →
      ∀ (front rest : List Char) (t : Instant.Shape) (errorIndex : Option Nat),
        ¬ (∃ seconds, DateTime.IsSecond seconds t.dateTime) →
          ∃ stop, parseAt ⟨[.instant], s⟩ (front ++ t.chars s.symbols ++ rest)
            ⟨byteLength front, errorIndex⟩ = (none, ⟨byteLength front, some stop⟩)) := by
  constructor
  · intro text position after v h
    cases hstart : dropBytes? position.index text with
    | none =>
        rw [parseAt_of_not_boundary _ hstart] at h
        cases h
    | some start =>
        rw [parseAt_of_boundary _ hstart] at h
        obtain ⟨front, rfl, hindex⟩ := eq_append_of_dropBytes? hstart
        rcases hparse : parseStart ⟨[.instant], s⟩ start with stop | ⟨w, rest⟩
        · rw [hparse] at h
          cases h
        · rw [hparse] at h
          obtain ⟨t, rfl, hdt, rfl⟩ := parseStart_instant_eq_ok hparse
          cases h
          refine ⟨front, rest, t, _, (List.append_assoc ..).symm, hindex.symm, ?_,
            DateTime.isSecond_iff.2 ⟨hdt, rfl⟩, rfl⟩
          rw [← List.append_assoc, place_append]
  · intro hs front rest t errorIndex hnot
    have hstart : dropBytes? (byteLength front) (front ++ t.chars s.symbols ++ rest) =
        some (t.chars s.symbols ++ rest) := by
      rw [List.append_assoc, dropBytes?_append]
    rw [parseAt_of_boundary _ hstart]
    rcases hparse : parseStart ⟨[.instant], s⟩ (t.chars s.symbols ++ rest) with stop | ⟨v, stop⟩
    · exact ⟨_, rfl⟩
    · -- What was read would be another shape.
      obtain ⟨t', htext, hdt, -⟩ := parseStart_instant_eq_ok hparse
      obtain rfl := Instant.Shape.chars_append_inj hs htext
      exact absurd ⟨_, DateTime.isSecond_iff.2 ⟨hdt, rfl⟩⟩ hnot

/-- The first minute of February 29 in the year −10003, which has no such day. -/
def noLeapDay : Instant.Shape where
  sign := some .negative
  year := ⟨[1, 0, 0, 0, 3], by decide, by decide, by decide⟩
  month := ⟨[0, 2], by decide, by decide, by decide⟩
  day := ⟨[2, 9], by decide, by decide, by decide⟩
  separator := 'T'
  hour := ⟨[0, 0], by decide, by decide, by decide⟩
  minute := ⟨[0, 0], by decide, by decide, by decide⟩
  second := none
  zone := 'Z'
  separator_eq := .inl rfl
  zone_eq := .inl rfl

/-- The end of the leap day of −10004 is read in the middle of a text, and that of −10003 is not. -/
theorem parseAt_instant_leap_day :
    (parseAt ⟨[.instant], .ofLocale "en"⟩ "at -10004-02-29t23:59:59.25z!".toList ⟨3, none⟩ =
        (some (.ofInstant (-377857785601) 250000000), ⟨28, none⟩) ∧
      ∃ (front rest : List Char) (t : Instant.Shape) (seconds : Int),
        "at -10004-02-29t23:59:59.25z!".toList = front ++ t.chars .standard ++ rest ∧
        3 = byteLength front ∧
        (⟨28, none⟩ : ParsePosition) = ⟨byteLength (front ++ t.chars .standard), none⟩ ∧
        DateTime.IsSecond seconds t.dateTime ∧
        Components.ofInstant (-377857785601) 250000000 = .ofInstant seconds t.nano) ∧
    Symbols.standard.Apart ∧ ¬ (∃ seconds, DateTime.IsSecond seconds noLeapDay.dateTime) ∧
      ∃ stop, parseAt ⟨[.instant], .ofLocale "en"⟩
          ("at ".toList ++ noLeapDay.chars .standard ++ ['!']) ⟨3, none⟩ =
        (none, ⟨3, some stop⟩) := by
  have hread : parseAt ⟨[.instant], .ofLocale "en"⟩ "at -10004-02-29t23:59:59.25z!".toList
      ⟨3, none⟩ = (some (.ofInstant (-377857785601) 250000000), ⟨28, none⟩) := by
    decide +kernel
  have hnot : ¬ ∃ seconds, DateTime.IsSecond seconds noLeapDay.dateTime := by
    rintro ⟨seconds, hsecond⟩
    exact absurd (DateTime.isSecond_iff.1 hsecond).1 (by decide)
  obtain ⟨hsound, hrefused⟩ := parseAt_instant (.ofLocale "en")
  exact ⟨⟨hread, hsound _ _ _ _ hread⟩, Symbols.standard_apart, hnot,
    hrefused Symbols.standard_apart "at ".toList ['!'] noLeapDay none hnot⟩

end DateTimeText.Formatter
