import DateTimeText.Formatter.Iso
import DateTimeText.Proofs.Formatter.Reading
import DateTimeText.Proofs.Formatter.Writing
import DateTimeText.Proofs.Node.IsoParts

/-!
# Instants written and read back

Every instant is written, as the date-time of its second with as many digits of the year as it has.
It is read back from there exactly if these are no more than ten.
-/

namespace DateTimeText

namespace Components

/-- The components of an instant that was read. -/
def ofInstant (seconds : Int) (nanos : Nat) : Components :=
  (empty.set .instantSeconds seconds).set .nanoOfSecond nanos

end Components

namespace Instant

/-- The second −9999999999-01-01T00:00:00Z. -/
def firstReadable : Int := -315569582135596800

/-- The second +10000000000-01-01T00:00:00Z. -/
def endOfReadable : Int := 315569457832780800

/-- The seconds between are those of the years of at most ten digits. -/
theorem length_year_le_iff {dt : DateTime} (hdt : dt.InCalendar) :
    (decimal dt.date.year.natAbs).length ≤ 10 ↔
      firstReadable ≤ dt.toEpochSeconds 0 ∧ dt.toEpochSeconds 0 < endOfReadable := by
  have hfirst : (daysBeforeYear (-9999999999) - daysToEpoch) * secondsPerDay = firstReadable := by
    decide
  have hend : (daysBeforeYear 10000000000 - daysToEpoch) * secondsPerDay = endOfReadable := by
    decide
  have hlow := hdt.lt_daysBeforeYear_iff (-9999999999)
  have hhigh := hdt.lt_daysBeforeYear_iff 10000000000
  have hlen : (decimal dt.date.year.natAbs).length ≤ 10 ↔ dt.date.year.natAbs < tenPow 10 :=
    length_decimal_le_iff (by decide)
  rw [hfirst] at hlow
  rw [hend] at hhigh
  rw [hlen]
  simp only [tenPow]
  omega

end Instant

namespace Formatter

theorem root_isoInstant :
    isoInstant.root = .group [.mode .caseInsensitive, .instant] false := rfl

theorem format_isoInstant {v : Components} {seconds nano : Int}
    (hseconds : v.field .instantSeconds = some seconds) (hnano : v.field .nanoOfSecond = some nano)
    {text : List Char} (h : Instant.render seconds nano = .ok text) :
    isoInstant.format v = .ok text := by
  have hrender : isoInstant.root.render isoInstant.settings v = .ok (some text) := by
    have hinstant : Instant.renderComponents v = .ok (some text) := by
      rw [Instant.renderComponents, hseconds, hnano]
      dsimp only
      rw [h]
    rw [root_isoInstant, Node.render, Node.renderTo, Node.renderWith, Node.renderAllWith,
      Node.renderWith, Node.renderAllWith, Node.renderWith, hinstant]
    simp [Node.renderAllWith]
  rw [format_eq, hrender]

/-- The instant is read in a mode that is not kept from the parts it is read in. -/
theorem parse_root_isoInstant (text : List Char) :
    isoInstant.root.parse isoInstant.settings .initial text =
      Node.parseTo isoInstant.settings 1 .instant ⟨⟨false, true⟩, .empty, []⟩ text := by
  have hnodes : isoInstant.root.parse isoInstant.settings .initial text =
      Node.parseAllWith (Node.parseTo isoInstant.settings 0) isoInstant.settings
        [.mode .caseInsensitive, .instant] .initial text := by
    rw [root_isoInstant]
    rfl
  rw [hnodes, Node.parseAllWith_cons_ok (Node.parseWith_mode ..), Node.parseAllWith_singleton]
  rfl

theorem parseStart_isoInstant_of_ok {after : Context} {text rest : List Char}
    (h : Node.parseTo isoInstant.settings 0 Iso.instantParts .initial text = (after, .ok rest))
    {seconds : Int} {nanos : Nat}
    (hinstant : Instant.ofComponents? after.current = some (seconds, (nanos : Int))) :
    isoInstant.parseStart text = .ok (Components.ofInstant seconds nanos, rest) := by
  have hread : Node.instantReading after.current text rest =
      .ok ⟨[(.instantSeconds, seconds), (.nanoOfSecond, nanos)], none, none, text, rest⟩ := by
    rw [Node.instantReading, hinstant]
  rw [parseStart, parse_root_isoInstant, Node.parseTo, Node.parseWith, h]
  dsimp only
  rw [hread]
  rfl

theorem parseStart_isoInstant_of_error {after : Context} {text rest : List Char}
    (h : Node.parseTo isoInstant.settings 0 Iso.instantParts .initial text =
      (after, .error rest)) : isoInstant.parseStart text = .error rest := by
  rw [parseStart, parse_root_isoInstant, Node.parseTo, Node.parseWith, h]

theorem parse_isoInstant_of_ok {after : Context} {text : List Char}
    (h : Node.parseTo isoInstant.settings 0 Iso.instantParts .initial text = (after, .ok []))
    {seconds : Int} {nanos : Nat} (hseconds : FitsInt64 seconds) (hnanos : nanos < 1000000000)
    (hinstant : Instant.ofComponents? after.current = some (seconds, (nanos : Int))) :
    isoInstant.parse text = .ok (Components.ofInstant seconds nanos) := by
  apply parse_of_parseStart (parseStart_isoInstant_of_ok h hinstant)
  have hempty := Components.checkRanges_empty Chronology.iso
  exact Components.checkRanges_set (Components.checkRanges_set hempty hseconds)
    (Instant.nano_mem_range hnanos)

theorem parse_isoInstant_of_error {after : Context} {text rest : List Char}
    (h : Node.parseTo isoInstant.settings 0 Iso.instantParts .initial text =
      (after, .error rest)) {index : Nat} (hlen : text.length = index + rest.length) :
    isoInstant.parse text = .error (.mismatch (String.ofList (abbreviate text)) index) := by
  have hindex : text.length - rest.length = index := by omega
  rw [parse, parseStart_isoInstant_of_error h]
  dsimp only
  rw [hindex]

/-- Every instant is written, and one of the years of at most ten digits is read back: its second
and its nanosecond, no other field, zone or chronology. The text of any other instant stops being
read behind the sign and the ten digits of its year that are taken. -/
theorem parse_format_isoInstant {seconds : Int} {nanos : Nat} {i : Instant}
    (hi : Instant.of seconds nanos = .ok i) (hseconds : FitsInt64 seconds) :
    ∃ text, isoInstant.format i.components = .ok text ∧
      isoInstant.parse text =
        if Instant.firstReadable ≤ seconds ∧ seconds < Instant.endOfReadable then
          .ok (Components.ofInstant seconds nanos)
        else .error (.mismatch (String.ofList (abbreviate text)) 11) := by
  obtain ⟨hnanos, rfl⟩ : nanos < 1000000000 ∧ i = ⟨seconds, nanos⟩ := by
    unfold Instant.of at hi
    split at hi
    · rename_i hlt
      cases hi
      exact ⟨hlt, rfl⟩
    · cases hi
  obtain ⟨dt, hdt, hat, hnano, hrender⟩ := Instant.render_eq_utcText seconds hnanos
  have hyear := Instant.length_year_le_iff hdt
  rw [hat] at hyear
  refine ⟨Instant.utcText dt, format_isoInstant rfl rfl hrender, ?_⟩
  by_cases hlen : (decimal dt.date.year.natAbs).length ≤ 10
  · rw [if_pos (hyear.1 hlen)]
    have hparts : ∃ after, Node.parseTo isoInstant.settings 0 Iso.instantParts .initial
        (Instant.utcText dt ++ []) = (after, .ok []) ∧
          after.current = (Components.empty.withDate dt.date).withTime dt.time :=
      Node.parseWith_instantParts rfl hdt hlen []
    obtain ⟨after, hread, hafter⟩ := hparts
    have hinstant : Instant.ofComponents? after.current = some (seconds, (nanos : Int)) := by
      rw [hafter, Instant.ofComponents?_eq hdt, hat, hnano]
    rw [List.append_nil] at hread
    exact parse_isoInstant_of_ok hread hseconds hnanos hinstant
  · rw [if_neg (mt hyear.2 hlen)]
    have hparts : ∃ after stop, Node.parseTo isoInstant.settings 0 Iso.instantParts .initial
        (Instant.utcText dt ++ []) = (after, .error stop) ∧
          (Instant.utcText dt ++ []).length = 11 + stop.length :=
      Node.parseWith_instantParts_of_long rfl (Nat.lt_of_not_le hlen) []
    obtain ⟨after, stop, hread, hstop⟩ := hparts
    rw [List.append_nil] at hread hstop
    exact parse_isoInstant_of_error hread hstop

theorem parse_format_isoInstant_before_epoch :
    Instant.of (-1) 999999999 = .ok ⟨-1, 999999999⟩ ∧ FitsInt64 (-1) ∧
      ∃ text, isoInstant.format (Instant.components ⟨-1, 999999999⟩) = .ok text ∧
        isoInstant.parse text = .ok (Components.ofInstant (-1) 999999999) := by
  have hfits : FitsInt64 (-1) := by decide
  exact ⟨rfl, hfits, parse_format_isoInstant rfl hfits⟩

/-- The first second of the year +10000000000 is written in a text that is not read back. -/
theorem isoInstant_not_read_from_eleven_digits :
    Instant.of 315569457832780800 0 = .ok ⟨315569457832780800, 0⟩ ∧ FitsInt64 315569457832780800 ∧
      isoInstant.format (Instant.components ⟨315569457832780800, 0⟩) =
        .ok "+10000000000-01-01T00:00:00Z".toList ∧
      isoInstant.parse "+10000000000-01-01T00:00:00Z".toList =
        .error (.mismatch "+10000000000-01-01T00:00:00Z" 11) :=
  ⟨rfl, by decide, by rfl, by rfl⟩

end Formatter

end DateTimeText
