import DateTimeText.Proofs.Builder.Timestamps
import DateTimeText.Proofs.Formatter.Reading
import DateTimeText.Proofs.Node.DigitRows

/-!
# Timestamps of digits alone

What a pattern such as `yyyyMMddHHmm` writes is read back although nothing stands between its
numbers, since the year leaves as many digits as the others have. With a fraction of a second at the
end the year takes digits of it, and nothing is read back.
-/

namespace DateTimeText

theorem Components.checkRanges_restrict_eq_ok_iff {v : Components} {fields : List Field} :
    (v.restrict fields).checkRanges .iso = .ok () ↔
      ∀ f ∈ fields, ∀ x ∈ v.field f, x ∈ f.range := by
  rw [checkRanges_eq_ok_iff]
  constructor
  · intro h f hf x hx
    exact h f x ((if_pos hf).trans hx)
  · intro h f x hx
    by_cases hf : f ∈ fields
    · exact h f hf x ((if_pos hf).symm.trans hx)
    · cases (if_neg hf).symm.trans hx

namespace Timestamp

/-- The parts behind the year. -/
def numberParts (t : Timestamp) : List RowPart :=
  t.numbers.map fun number => (NumberStep.fixed number.field number.count).part

theorem parts_eq (t : Timestamp) : t.steps.map NumberStep.part =
    .number .anchor (.plain .year t.years maxDigits t.sign) :: t.numberParts := by
  rw [steps, List.map_cons, List.map_map, NumberStep.part, if_pos t.years_lt]
  rfl

theorem filterMap_field?_parts (t : Timestamp) :
    (t.steps.map NumberStep.part).filterMap RowPart.field? = t.fields := by
  have hnumbers : t.numberParts.filterMap RowPart.field? = t.numbers.map DigitLetters.field := by
    rw [numberParts, List.filterMap_map]
    exact congrFun List.filterMap_eq_map t.numbers
  rw [parts_eq]
  exact congrArg (Field.year :: ·) hnumbers

theorem separated_parts (t : Timestamp) (s : Symbols) :
    RowPart.Separated s (t.steps.map NumberStep.part) := by
  have hnumbers : RowPart.ClosesRun s t.numberParts ∧ RowPart.Separated s t.numberParts := by
    rw [numberParts]
    induction t.numbers with
    | nil => exact ⟨trivial, trivial⟩
    | cons number numbers ih => exact ih
  rw [parts_eq]
  exact hnumbers

theorem recovers_parts (t : Timestamp) {v : Components}
    (hfits : ∀ g, ∀ x ∈ v.field g, FitsInt64 x) :
    ∀ part ∈ t.steps.map NumberStep.part, part.Recovers v := by
  rw [List.forall_mem_map, steps, List.forall_mem_cons, List.forall_mem_map]
  refine ⟨NumberStep.recovers_part hfits ?_, fun number _ => NumberStep.recovers_part hfits trivial⟩
  rw [sign]
  split
  · trivial
  · trivial

theorem digitRow_numberParts (t : Timestamp) {st : Settings} (hs : st.symbols.Legible) :
    Leaf.DigitRow st (RowPart.leaves true t.numberParts) (RowPart.joinedWidth t.numberParts) := by
  have hfields : ∀ p ∈ t.numbers.map fun number => (number.field, number.count),
      p.1 ≠ .instantSeconds := by
    rw [List.forall_mem_map]
    exact fun number _ => Field.ne_instantSeconds_of_ofLetter? number.ofLetter?_eq
  refine Leaf.digitRow_fixed hs hfields ?_
  rw [List.map_map]
  rfl

theorem unbounded_year (t : Timestamp) (width : Nat) :
    ((Numeral.plain .year t.years maxDigits t.sign).reserve width).Unbounded where
  window_eq := rfl
  field_ne := nofun
  minWidth_pos := t.years_pos
  minWidth_lt := t.years_lt
  maxWidth_eq := rfl
  sign_ne := by
    change t.sign ≠ .never
    rw [sign]
    split
    · nofun
    · nofun

theorem leaves_not_offset (t : Timestamp) :
    ∀ l ∈ RowPart.leaves false (t.steps.map NumberStep.part) ++ t.fractionLeaves,
      ∀ o, l ≠ .offset o := by
  intro l hl
  rcases List.mem_append.1 hl with hl | hl
  · exact RowPart.leaves_not_offset false _ l hl
  · rw [fractionLeaves] at hl
    split at hl
    · cases hl
    · intro o ho
      rw [List.mem_singleton.1 hl] at ho
      cases ho

variable {t : Timestamp} {st : Settings} {v : Components} {text : List Char}

/-- Without a fraction, what was written is read back. -/
theorem parseAllWith_written (hs : st.symbols.Legible)
    (hvalid : ∀ x ∈ t.steps, x.part.Valid) (hfits : ∀ g, ∀ x ∈ v.field g, FitsInt64 x)
    (hw : Leaf.Written st v (RowPart.leaves false (t.steps.map NumberStep.part)) text)
    (expand : Node → Context → List Char → Parsed) :
    Node.parseAllWith expand st
      ((RowPart.leaves false (t.steps.map NumberStep.part)).map .leaf) .initial text =
        ({ Context.initial with current := v.restrict t.fields }, .ok []) := by
  have hempty : Context.initial.current = v.restrict [] := by
    simp [Components.restrict, Context.initial, Components.empty]
  have hread := RowPart.parseAllWith_written hs expand (List.forall_mem_map.2 hvalid)
    (t.recovers_parts hfits) (t.separated_parts st.symbols) hw rfl [] hempty
  rwa [filterMap_field?_parts] at hread

/-- With a fraction, what was written is not read, or not as values in range. -/
theorem not_parseAllWith_written (hs : st.symbols.Legible) (hpos : 0 < t.fraction)
    (hle : t.fraction ≤ 9)
    (hw : Leaf.Written st v
      (RowPart.leaves false (t.steps.map NumberStep.part) ++ t.fractionLeaves) text)
    {expand : Node → Context → List Char → Parsed} {after : Context}
    (hread : Node.parseAllWith expand st
      ((RowPart.leaves false (t.steps.map NumberStep.part) ++ t.fractionLeaves).map .leaf)
        .initial text = (after, .ok [])) :
    after.current.chronology = none ∧ ∃ f x, after.current.field f = some x ∧ x ∉ f.range := by
  have hfraction := Leaf.isDigits_fraction hs hpos hle
  have hrow := (t.digitRow_numberParts hs).append (.cons hfraction .nil)
  rw [parts_eq, fractionLeaves, if_neg (by omega)] at hw hread
  refine hrow.not_read hs (t.unbounded_year _) ?_ hw rfl hread rfl
  change 0 + RowPart.joinedWidth t.numberParts < _
  omega

end Timestamp

namespace Formatter

variable {t : Timestamp} {f : Formatter} {v : Components} {text : List Char}

theorem ofPattern_eq_ok {pattern : List Char} (h : ofPattern pattern = .ok f) :
    ∃ b, Builder.new.appendPattern pattern = .ok b ∧ f = ⟨b.nodes, .root⟩ := by
  rw [ofPattern, ofPatternWithLocale] at h
  cases hb : Builder.new.appendPattern pattern with
  | error e =>
      rw [hb] at h
      cases h
  | ok b =>
      rw [hb] at h
      cases h
      exact ⟨b, rfl, rfl⟩

/-- What a timestamp writes are the texts of its leaves. -/
theorem written_of_format_timestamp (hf : ofPattern t.pattern = .ok f)
    (htext : f.format v = .ok text) :
    f.settings = .root ∧ (∀ x ∈ t.steps, x.part.Valid) ∧ t.fraction ≤ 9 ∧
      f.nodes =
        (RowPart.leaves false (t.steps.map NumberStep.part) ++ t.fractionLeaves).map .leaf ∧
      Leaf.Written .root v
        (RowPart.leaves false (t.steps.map NumberStep.part) ++ t.fractionLeaves) text := by
  obtain ⟨b, hb, rfl⟩ := ofPattern_eq_ok hf
  obtain ⟨hvalid, hle, hnodes⟩ := Builder.nodes_of_timestamp hb
  have hprint := printAllWith_of_format htext
  rw [hnodes] at hprint
  obtain ⟨written, hw, rfl⟩ := Node.written_of_printAllWith t.leaves_not_offset hprint
  exact ⟨rfl, hvalid, hle, hnodes, hw⟩

/-- A timestamp without a fraction of a second is read back: every field that was written has its
value, and a reader of whole texts takes it exactly if these values are in range. -/
theorem parse_format_timestamp (hzero : t.fraction = 0) (hf : ofPattern t.pattern = .ok f)
    (hfits : ∀ g, ∀ x ∈ v.field g, FitsInt64 x) (htext : f.format v = .ok text) :
    (∀ g ∈ t.fields, (v.field g).isSome) ∧
      f.parseAt text ⟨0, none⟩ = (some (v.restrict t.fields), ⟨byteLength text, none⟩) ∧
      ∀ w, f.parse text = .ok w ↔
        w = v.restrict t.fields ∧ ∀ g ∈ t.fields, ∀ x ∈ v.field g, x ∈ g.range := by
  obtain ⟨hsettings, hvalid, -, hnodes, hw⟩ := written_of_format_timestamp hf htext
  rw [Timestamp.fractionLeaves, if_pos hzero, List.append_nil] at hnodes hw
  have hs : Settings.root.symbols.Legible := Symbols.standard_legible
  have hread := Timestamp.parseAllWith_written hs hvalid hfits hw (Node.parseTo f.settings 0)
  rw [← hnodes, ← hsettings] at hread
  refine ⟨?some, parseAt_of_parseAllWith hread none, fun w => ?parse⟩
  case some =>
    rw [← t.filterMap_field?_parts]
    exact RowPart.isSome_of_written (List.forall_mem_map.2 hvalid) hw
  case parse =>
    rw [parse_eq_ok_iff, ← Components.checkRanges_restrict_eq_ok_iff, hread, hsettings]
    constructor
    · rintro ⟨⟨after, ⟨⟩, rfl⟩, hranges⟩
      exact ⟨rfl, hranges⟩
    · rintro ⟨rfl, hranges⟩
      exact ⟨⟨_, rfl, rfl⟩, hranges⟩

theorem parse_format_timestamp_of_seconds :
    let t := Timestamp.ofSeconds 0
    let v := (((((Components.empty.set .year 12011).set .monthOfYear 12).set .dayOfMonth 3).set
      .hourOfDay 10).set .minuteOfHour 15).set .secondOfMinute 30
    let text := "+120111203101530".toList
    t.pattern = "yyyyMMddHHmmss".toList ∧ (∀ g, ∀ x ∈ v.field g, FitsInt64 x) ∧
      ∃ f, ofPattern t.pattern = .ok f ∧ f.format v = .ok text ∧
        f.parseAt text ⟨0, none⟩ = (some v, ⟨16, none⟩) ∧ f.parse text = .ok v := by
  intro t v text
  have hfits : ∀ g, ∀ x ∈ v.field g, FitsInt64 x := by
    intro g x hx
    cases g <;> cases hx <;> decide
  have hf : ∃ f, ofPattern t.pattern = .ok f ∧ f.format v = .ok text := by
    rw [ofPattern, ofPatternWithLocale, Builder.appendPattern, t.parseAll_pattern]
    refine ⟨_, rfl, ?_⟩
    decide +kernel
  obtain ⟨f, hf, htext⟩ := hf
  have hrestrict : v.restrict t.fields = v := by decide
  have hranges : ∀ g ∈ t.fields, ∀ x ∈ v.field g, x ∈ g.range := by decide
  obtain ⟨-, hread, hparse⟩ := parse_format_timestamp rfl hf hfits htext
  rw [hrestrict] at hread
  exact ⟨rfl, hfits, f, hf, htext, hread, (hparse v).2 ⟨hrestrict.symm, hranges⟩⟩

/-- From a timestamp with a fraction of a second nothing is read. -/
theorem parse_format_timestamp_ne_ok (hpos : 0 < t.fraction) (hf : ofPattern t.pattern = .ok f)
    (htext : f.format v = .ok text) (w : Components) : f.parse text ≠ .ok w := by
  intro hparse
  obtain ⟨hsettings, -, hle, hnodes, hw⟩ := written_of_format_timestamp hf htext
  obtain ⟨⟨after, hafter, rfl⟩, hranges⟩ := parse_eq_ok_iff.1 hparse
  rw [hnodes, hsettings] at hafter
  obtain ⟨hchronology, g, x, hx, hout⟩ :=
    Timestamp.not_parseAllWith_written Symbols.standard_legible hpos hle hw hafter
  have hiso : f.settings.parseChronology after.current = .iso := by
    rw [hsettings, Settings.parseChronology, hchronology]
    rfl
  rw [hiso, Components.checkRanges_eq_ok_iff] at hranges
  exact hout (hranges g x hx)

/-- The year of a timestamp with milliseconds takes three digits that are not its own, more than may
stand without a sign. Of a timestamp without them a month that does not exist is not taken. -/
theorem timestamps_not_read :
    let v := (((((Components.empty.set .year 2011).set .monthOfYear 12).set .dayOfMonth 3).set
      .hourOfDay 10).set .minuteOfHour 15).set .secondOfMinute 30
    (∃ f, ofPattern "yyyyMMddHHmmssSSS".toList = .ok f ∧
      f.format (v.set .nanoOfSecond 123000000) = .ok "20111203101530123".toList ∧
      f.parse "20111203101530123".toList = .error (.mismatch "20111203101530123" 0)) ∧
    ∃ f, ofPattern "yyyyMMddHHmmss".toList = .ok f ∧
      f.format (v.set .monthOfYear 45) = .ok "20114503101530".toList ∧
      f.parse "20114503101530".toList = .error (.invalidValue "20114503101530"
        (.outOfRange .monthOfYear Field.monthOfYear.range 45)) := by
  intro v
  have hpatterns : "yyyyMMddHHmmssSSS".toList = (Timestamp.ofSeconds 3).pattern ∧
      "yyyyMMddHHmmss".toList = (Timestamp.ofSeconds 0).pattern := ⟨rfl, rfl⟩
  rw [hpatterns.1, hpatterns.2]
  simp only [ofPattern, ofPatternWithLocale, Builder.appendPattern, Timestamp.parseAll_pattern]
  refine ⟨⟨_, rfl, ?_, ?_⟩, _, rfl, ?_, ?_⟩
  · rfl
  · rfl
  · rfl
  · rfl

end Formatter

end DateTimeText
