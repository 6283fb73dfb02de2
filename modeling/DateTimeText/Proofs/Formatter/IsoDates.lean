import DateTimeText.Formatter.Iso
import DateTimeText.Offset
import DateTimeText.Proofs.Formatter.Reading
import DateTimeText.Proofs.Formatter.Writing
import DateTimeText.Proofs.Node.IsoText
import DateTimeText.Proofs.Node.OffsetText

/-!
# Dates written and read back in the ISO formats

Every date-time is written at every offset in its ISO form, whatever sign and width its year has,
and read back with all of its fields. Where the fraction of the second ends, the text goes on with
`Z` or a sign. The basic form has the four digits of a year that is neither negative nor wider, and
ends with an offset or not.
-/

namespace DateTimeText

/-- The components with an offset, if there is one. -/
def Components.withOffset (v : Components) : Option UtcOffset → Components
  | some offset => v.set .offsetSeconds offset.total
  | none => v

theorem UtcOffset.total_mem_range (offset : UtcOffset) :
    offset.total ∈ Field.offsetSeconds.range := by
  have hle := offset.natAbs_le
  simp only [maxOffset] at hle
  simp only [ValueRange.mem_def, Field.range, ValueRange.fixed]
  omega

theorem Date.Valid.length_year_le {d : Date} (hd : d.Valid) :
    (decimal d.year.natAbs).length ≤ 10 := by
  rw [length_decimal_le_iff (by decide)]
  have hyear := hd.1
  simp only [ValueRange.mem_def, Field.range, ValueRange.fixed] at hyear
  simp only [tenPow]
  omega

theorem ValueRange.natCast_mem_fixed {n m : Nat} (h : n ≤ m) : (n : Int) ∈ fixed 0 m :=
  ⟨Int.natCast_nonneg n, Int.ofNat_le.2 h⟩

namespace Components

theorem checkRanges_withDate {v : Components} (hv : v.checkRanges .iso = .ok ()) {d : Date}
    (hd : d.Valid) : (v.withDate d).checkRanges .iso = .ok () := by
  obtain ⟨hyear, hcalendar⟩ := Date.valid_iff.1 hd
  have hmonth : (d.month : Int) ∈ Field.monthOfYear.range := by
    have hone := hcalendar.one_le_month
    have hle := hcalendar.month_le
    simp only [ValueRange.mem_def, Field.range, ValueRange.fixed]
    omega
  have hday : (d.day : Int) ∈ Field.dayOfMonth.range := by
    have hone := hcalendar.one_le_day
    have hle := hcalendar.day_le_thirty_one
    simp only [ValueRange.mem_def, Field.range, ValueRange.variableMax]
    omega
  exact checkRanges_set (checkRanges_set (checkRanges_set hv hyear) hmonth) hday

theorem chronology_withTime (v : Components) (t : Time) :
    (v.withTime t).chronology = v.chronology := by
  rw [withTime]
  split
  · rfl
  · rfl

theorem checkRanges_withTime {v : Components} (hv : v.checkRanges .iso = .ok ()) {t : Time}
    (ht : t.Valid) : (v.withTime t).checkRanges .iso = .ok () := by
  obtain ⟨hhour, hminute, hsecond, hnano⟩ := ht
  have hclock : (((v.set .hourOfDay t.hour).set .minuteOfHour t.minute).set .secondOfMinute
      t.second).checkRanges .iso = .ok () := by
    refine checkRanges_set (checkRanges_set (checkRanges_set hv ?hour) ?minute) ?second
    case hour => exact ValueRange.natCast_mem_fixed (m := 23) (by omega)
    case minute => exact ValueRange.natCast_mem_fixed (m := 59) (by omega)
    case second => exact ValueRange.natCast_mem_fixed (m := 59) (by omega)
  rw [withTime]
  split
  · exact hclock
  · exact checkRanges_set hclock (Instant.nano_mem_range hnano)

theorem checkRanges_withOffset {v : Components} (hv : v.checkRanges .iso = .ok ())
    (offset : Option UtcOffset) : (v.withOffset offset).checkRanges .iso = .ok () := by
  cases offset with
  | some offset => exact checkRanges_set hv offset.total_mem_range
  | none => exact hv

end Components

namespace Formatter

theorem format_isoOffsetDateTime {date : Date} (hdate : date.Valid) {time : Time}
    (htime : time.Valid) (offset : UtcOffset) :
    ∃ fraction text, Iso.IsFraction time.nano fraction ∧
      OffsetForm.iso.render offset.total = .ok text ∧
      isoOffsetDateTime.format ((DateTime.mk date time).components.withOffset (some offset)) =
        .ok (Iso.dateText date ++ 'T' :: (Iso.clockText time fraction ++ text)) := by
  let v := (DateTime.mk date time).components.withOffset (some offset)
  obtain ⟨fraction, hfraction, hlocal⟩ :
      ∃ fraction, Iso.IsFraction time.nano fraction ∧
        Node.renderAllWith (Node.renderTo .root v 0) .root v Iso.localDateTime =
          .ok (some (Iso.dateText date ++ 'T' :: Iso.clockText time fraction)) := by
    apply Node.renderAllWith_localDateTime (d := ⟨date, time⟩) rfl (Date.valid_iff.1 hdate).2
      hdate.length_year_le htime
    simp [v, Components.withOffset]
  obtain ⟨text, htext⟩ := offset.exists_render .iso
  refine ⟨fraction, text, hfraction, htext, ?_⟩
  have hroot : isoOffsetDateTime.root.render isoOffsetDateTime.settings v =
      .ok (some ((Iso.dateText date ++ 'T' :: Iso.clockText time fraction) ++ text)) := by
    refine Node.renderWith_group ((Node.renderAllWith_mode ..).trans ?_) false
    refine Node.renderAllWith_cons (Node.renderWith_group hlocal false) ?_
    exact Node.renderAllWith_singleton (Node.renderWith_offset rfl htext)
  rw [List.append_assoc, List.cons_append] at hroot
  exact format_of_render hroot

/-- What an offset starts with is no part of a time of day. -/
theorem endsDigits_of_render {total : Int} (h : total.natAbs < 216000) {text : List Char}
    (htext : OffsetForm.iso.render total = .ok text) :
    Symbols.standard.EndsDigits text ∧ ∀ c ∈ text.head?, c ≠ '.' := by
  have hhead := OffsetForm.head?_of_render h htext
  constructor
  · intro c hc
    rcases hhead c hc with ⟨⟨⟩⟩ | rfl | rfl <;> rfl
  · intro c hc
    rcases hhead c hc with ⟨⟨⟩⟩ | rfl | rfl <;> decide

/-- A date-time at an offset is written and read back: all of its fields but a fraction of zero, no
other field, zone or chronology. -/
theorem parse_format_isoOffsetDateTime {date : Date} (hdate : date.Valid) {time : Time}
    (htime : time.Valid) (offset : UtcOffset) :
    ∃ text, isoOffsetDateTime.format ((DateTime.mk date time).components.withOffset (some offset)) =
        .ok text ∧
      isoOffsetDateTime.parse text =
        .ok (((Components.empty.withDate date).withTime time).withOffset (some offset)) := by
  obtain ⟨fraction, text, hfraction, hoffset, hformat⟩ :=
    format_isoOffsetDateTime hdate htime offset
  obtain ⟨hdigits, hpoint⟩ := endsDigits_of_render offset.natAbs_total_lt hoffset
  have hcalendar := (Date.valid_iff.1 hdate).2
  let read := (Components.empty.withDate date).withTime time
  have hread : Node.parseAllWith (Node.parseTo .root 0) .root Iso.offsetDateTime .initial
      (Iso.dateText date ++ 'T' :: (Iso.clockText time fraction ++ text)) =
        (⟨⟨false, true⟩, read.set .offsetSeconds offset.total, []⟩, .ok []) := by
    refine (Node.parseAllWith_cons_ok (Node.parseWith_mode ..)).trans ?_
    refine (Node.parseAllWith_cons_ok (Node.parseWith_localDateTime rfl rfl rfl hcalendar
      hdate.length_year_le htime hfraction hdigits hpoint)).trans ?_
    have hend : Node.parseWith (Node.parseTo .root 0) .root (.leaf (.offset .iso))
        ⟨⟨false, true⟩, read, []⟩ (text ++ []) =
          (⟨⟨false, true⟩, read.set .offsetSeconds (OffsetForm.kept _ offset.total), []⟩, .ok []) :=
      Node.parseWith_offset (OffsetForm.tellsZero_of_zeroText rfl _) offset.natAbs_total_lt hoffset
        OffsetForm.endsOffset_nil (Instant.field_withTime _ _ _ nofun)
    have hkept := OffsetForm.kept_of_seconds (p := OffsetForm.iso.pattern) nofun offset.total
    rw [List.append_nil, hkept] at hend
    exact (Node.parseAllWith_singleton ..).trans hend
  have hranges : (read.withOffset (some offset)).checkRanges .iso = .ok () :=
    Components.checkRanges_withOffset (Components.checkRanges_withTime
      (Components.checkRanges_withDate (Components.checkRanges_empty .iso) hdate) htime) _
  have hchronology : Settings.root.parseChronology (read.set .offsetSeconds offset.total) =
      .iso := by
    rw [Settings.parseChronology, Components.chronology_set, Components.chronology_withTime]
    rfl
  refine ⟨_, hformat, parse_eq_ok_iff.2 ⟨⟨_, hread, rfl⟩, ?_⟩⟩
  exact (congrArg _ hchronology).trans hranges

theorem parse_format_isoOffsetDateTime_leap_day :
    Date.Valid ⟨-10004, 2, 29⟩ ∧ Time.Valid ⟨23, 59, 58, 120000000⟩ ∧
      isoOffsetDateTime.format
          ((DateTime.components ⟨⟨-10004, 2, 29⟩, ⟨23, 59, 58, 120000000⟩⟩).withOffset
            (some ⟨-3723, by decide⟩)) =
        .ok "-10004-02-29T23:59:58.12-01:02:03".toList ∧
      isoOffsetDateTime.parse "-10004-02-29T23:59:58.12-01:02:03".toList =
        .ok (((Components.empty.withDate ⟨-10004, 2, 29⟩).withTime
          ⟨23, 59, 58, 120000000⟩).withOffset (some ⟨-3723, by decide⟩)) := by
  have hdate : Date.Valid ⟨-10004, 2, 29⟩ := by decide
  have htime : Time.Valid ⟨23, 59, 58, 120000000⟩ := by decide
  obtain ⟨text, hformat, hparse⟩ := parse_format_isoOffsetDateTime hdate htime ⟨-3723, by decide⟩
  obtain rfl : "-10004-02-29T23:59:58.12-01:02:03".toList = text :=
    Except.ok.inj ((by rfl : _ = _).symm.trans hformat)
  exact ⟨hdate, htime, hformat, hparse⟩

end Formatter

/-! ### Basic dates -/

namespace Iso

/-- The form of the offset of a basic date. -/
def basicForm : OffsetForm := ⟨['Z'], .hoursMinutesOptionalSeconds⟩

/-- The text behind the digits of a basic date. -/
def IsBasicOffset (text : List Char) : Option UtcOffset → Prop
  | some offset => basicForm.render offset.total = .ok text
  | none => text = []

end Iso

namespace Node

theorem renderWith_basicOffset (expand : Node → Except FormatError (Option (List Char)))
    (st : Settings) {v : Components} {offset : Option UtcOffset}
    (hv : v.field .offsetSeconds = offset.map (·.total)) :
    ∃ text, Iso.IsBasicOffset text offset ∧
      renderWith expand st v Iso.basicOffset = .ok (some text) := by
  cases offset with
  | some offset =>
      obtain ⟨text, htext⟩ := offset.exists_render Iso.basicForm
      refine ⟨text, htext, renderWith_group ?_ true⟩
      have hend : renderAllWith expand st v [leaf (.offset Iso.basicForm), mode .strict] =
          .ok (some (text ++ [])) :=
        renderAllWith_cons (renderWith_offset hv htext)
          (renderAllWith_singleton (renderWith_mode .strict))
      rw [List.append_nil] at hend
      exact (renderAllWith_mode ..).trans hend
  | none =>
      refine ⟨[], rfl, ?_⟩
      have hnone : v.field .offsetSeconds = none := hv
      simp [Iso.basicOffset, renderWith, renderAllWith, Leaf.render, Leaf.renderField, hnone]

/-- The offset is read in lenient mode, which lasts if there is none. -/
theorem parseWith_basicOffset (expand : Node → Context → List Char → Parsed) (st : Settings)
    {text : List Char} {offset : Option UtcOffset} (htext : Iso.IsBasicOffset text offset)
    {c : Context} (hstrict : c.mode.strict = true)
    (hnew : c.current.field .offsetSeconds = none) :
    ∃ after, parseWith expand st Iso.basicOffset c text = (after, .ok []) ∧
      after.current = c.current.withOffset offset := by
  cases offset with
  | some offset =>
      obtain ⟨⟨caseSensitive, strict⟩, v, saved⟩ := c
      obtain rfl : strict = true := hstrict
      have hkept := OffsetForm.kept_of_seconds (p := Iso.basicForm.pattern) nofun offset.total
      have hoffset : parseWith expand st (leaf (.offset Iso.basicForm))
          ⟨⟨caseSensitive, false⟩, v, v :: saved⟩ (text ++ []) =
            (⟨⟨caseSensitive, false⟩, v.set .offsetSeconds
              (OffsetForm.kept Iso.basicForm.pattern offset.total), v :: saved⟩, .ok []) :=
        parseWith_offset (OffsetForm.tellsZero_of_zeroText rfl _) offset.natAbs_total_lt htext
          OffsetForm.endsOffset_nil hnew
      rw [List.append_nil, hkept] at hoffset
      refine ⟨_, parseWith_section_ok ?_, rfl⟩
      refine (parseAllWith_cons_ok (parseWith_mode ..)).trans ?_
      refine (parseAllWith_cons_ok hoffset).trans ?_
      exact (parseAllWith_singleton ..).trans (parseWith_mode ..)
  | none =>
      obtain rfl : text = [] := htext
      exact ⟨{ c with mode := { c.mode with strict := false } }, rfl, rfl⟩

theorem parseAllWith_basicDate (expand : Node → Context → List Char → Parsed) {date : Date}
    (hdate : date.InCalendar) {year : Nat} (hyear : date.year = year) (hlt : year < 10000)
    {text : List Char} {offset : Option UtcOffset} (htext : Iso.IsBasicOffset text offset) :
    ∃ after, parseAllWith expand .root Iso.basicDate .initial (zeroPadded 4 year ++
        (zeroPadded 2 date.month ++ (zeroPadded 2 date.day ++ text))) = (after, .ok []) ∧
      after.current = (Components.empty.withDate date).withOffset offset := by
  have hmonth : date.month < 100 := by have := hdate.month_le; omega
  have hday : date.day < 100 := by have := hdate.day_le_thirty_one; omega
  obtain ⟨after, hoffset, hafter⟩ := parseWith_basicOffset expand .root htext
    (c := ⟨⟨false, true⟩, Components.empty.withDate date, []⟩) rfl rfl
  rw [Components.withDate, hyear] at hoffset
  refine ⟨after, ?_, hafter⟩
  refine (parseAllWith_cons_ok (parseWith_mode ..)).trans ?_
  refine (parseAllWith_cons_ok
    (parseWith_fixed rfl rfl rfl (by decide) (by decide) hlt _)).trans ?_
  refine (parseAllWith_cons_ok (parseWith_twoDigits rfl rfl rfl hmonth _)).trans ?_
  refine (parseAllWith_cons_ok (parseWith_twoDigits rfl rfl rfl hday _)).trans ?_
  exact (parseAllWith_singleton ..).trans hoffset

end Node

namespace Formatter

/-- The text of a basic date, or why there is none. -/
theorem render_basicIsoDate {date : Date} (hdate : date.InCalendar) (offset : Option UtcOffset) :
    (∀ year : Nat, date.year = year → year < 10000 →
      ∃ text, Iso.IsBasicOffset text offset ∧
        basicIsoDate.root.render .root (date.components.withOffset offset) =
          .ok (some (zeroPadded 4 year ++ (zeroPadded 2 date.month ++
            (zeroPadded 2 date.day ++ text))))) ∧
    (date.year < 0 ∨ 9999 < date.year →
      basicIsoDate.root.render .root (date.components.withOffset offset) =
        .error (.print (if 9999 < date.year.natAbs then .tooWide .year date.year 4
          else .negative .year date.year))) := by
  let v := date.components.withOffset offset
  have hmonth : date.month < 100 := by have := hdate.month_le; omega
  have hday : date.day < 100 := by have := hdate.day_le_thirty_one; omega
  have hfields : ∀ f ∈ [Field.year, .monthOfYear, .dayOfMonth], v.field f = date.field f := by
    cases offset <;> simp [v, Components.withOffset, Date.components]
  have hoffset : v.field .offsetSeconds = offset.map (·.total) := by
    cases offset <;> rfl
  constructor
  · intro year hyear hlt
    obtain ⟨text, htext, hsection⟩ :=
      Node.renderWith_basicOffset (Node.renderTo .root v 0) .root hoffset
    have hyearField : v.field .year = some (year : Int) := by
      rw [hfields .year (by simp), ← hyear]
      rfl
    refine ⟨text, htext, Node.renderWith_group ((Node.renderAllWith_mode ..).trans ?_) false⟩
    refine Node.renderAllWith_cons (Node.renderWith_fixed rfl hyearField (by decide) hlt) ?_
    refine Node.renderAllWith_cons
      (Node.renderWith_twoDigits rfl (hfields .monthOfYear (by simp)) hmonth) ?_
    refine Node.renderAllWith_cons
      (Node.renderWith_twoDigits rfl (hfields .dayOfMonth (by simp)) hday) ?_
    exact Node.renderAllWith_singleton hsection
  · intro hyear
    have hrender : (Numeral.plain .year 4 4 .notNegative).render .standard date.year =
        .error (if 9999 < date.year.natAbs then .tooWide .year date.year 4
          else .negative .year date.year) := by
      have hshown : (Numeral.plain .year 4 4 .notNegative).shown date.year = date.year := rfl
      have hwide : tenPow 4 ≤ date.year.natAbs ↔ 9999 < date.year.natAbs := Iff.rfl
      rw [Numeral.render_fixed Symbols.standard_legible (by decide : 0 < 4) rfl rfl rfl, hshown]
      simp only [hwide]
      split
      · rfl
      · exact if_pos (by omega)
    have hfirst : Node.renderWith (Node.renderTo .root v 0) .root v
        (.numeral (.plain .year 4 4 .notNegative)) = _ :=
      Node.renderWith_numeral_error (hfields .year (by simp)) hrender
    exact Node.renderWith_group_error
      ((Node.renderAllWith_mode ..).trans (Node.renderAllWith_cons_error hfirst)) false

/-- A date at an offset or none is written in the basic form and read back if its year is one of
0 to 9999: its fields, and the offset exactly if there is one. A date of another year is not
written, and leaves the buffer as it was. -/
theorem parse_format_basicIsoDate {date : Date} (hdate : date.Valid) (offset : Option UtcOffset) :
    (0 ≤ date.year ∧ date.year ≤ 9999 →
      ∃ text, basicIsoDate.format (date.components.withOffset offset) = .ok text ∧
        basicIsoDate.parse text = .ok ((Components.empty.withDate date).withOffset offset)) ∧
    (date.year < 0 ∨ 9999 < date.year → ∀ buffer,
      basicIsoDate.formatTo (date.components.withOffset offset) buffer =
        (buffer, .error (.print (if 9999 < date.year.natAbs then .tooWide .year date.year 4
          else .negative .year date.year)))) := by
  have hcalendar := (Date.valid_iff.1 hdate).2
  have hsettings : basicIsoDate.settings = .root := rfl
  obtain ⟨hwritten, hrefused⟩ := render_basicIsoDate hcalendar offset
  constructor
  · rintro ⟨hlow, hhigh⟩
    obtain ⟨year, hyear⟩ := Int.eq_ofNat_of_zero_le hlow
    obtain ⟨text, htext, hrender⟩ := hwritten year hyear (by omega)
    obtain ⟨after, hread, hafter⟩ :=
      Node.parseAllWith_basicDate (Node.parseTo .root 0) hcalendar hyear (by omega) htext
    have hchronology : Settings.root.parseChronology ((Components.empty.withDate date).withOffset
        offset) = .iso := by
      cases offset <;> rfl
    have hranges : ((Components.empty.withDate date).withOffset offset).checkRanges .iso = .ok () :=
      Components.checkRanges_withOffset (Components.checkRanges_withDate
        (Components.checkRanges_empty .iso) hdate) offset
    refine ⟨_, format_of_render hrender, parse_eq_ok_iff.2 ⟨⟨after, hread, hafter⟩, ?_⟩⟩
    exact (congrArg _ hchronology).trans hranges
  · intro hyear buffer
    rw [formatTo_eq, hsettings, hrefused hyear]

/-- A date of a year of one digit, at an offset with seconds, and one of a year of five digits. -/
theorem parse_format_basicIsoDate_small_year :
    Date.Valid ⟨7, 2, 28⟩ ∧ Date.Valid ⟨10000, 1, 1⟩ ∧
      basicIsoDate.format ((Date.components ⟨7, 2, 28⟩).withOffset (some ⟨-3723, by decide⟩)) =
        .ok "00070228-010203".toList ∧
      basicIsoDate.parse "00070228-010203".toList =
        .ok ((Components.empty.withDate ⟨7, 2, 28⟩).withOffset (some ⟨-3723, by decide⟩)) ∧
      basicIsoDate.formatTo ((Date.components ⟨10000, 1, 1⟩).withOffset none) ['x'] =
        (['x'], .error (.print (.tooWide .year 10000 4))) := by
  have hsmall : Date.Valid ⟨7, 2, 28⟩ := by decide
  have hlarge : Date.Valid ⟨10000, 1, 1⟩ := by decide
  obtain ⟨text, hformat, hparse⟩ :=
    (parse_format_basicIsoDate hsmall (some ⟨-3723, by decide⟩)).1 (by decide)
  obtain rfl : "00070228-010203".toList = text :=
    Except.ok.inj ((by rfl : _ = _).symm.trans hformat)
  exact ⟨hsmall, hlarge, hformat, hparse,
    (parse_format_basicIsoDate hlarge none).2 (by decide) ['x']⟩

end Formatter

end DateTimeText
