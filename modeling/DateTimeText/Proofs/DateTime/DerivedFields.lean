import DateTimeText.Proofs.Chronology.YearRanges
import DateTimeText.Proofs.Date.Succession

/-!
# Derived fields

A date and a time of day have all fields between them but the seconds of an instant and the offset,
each derived on its own. They lie in their ranges, so what a formatter reads of them passes the
check, and those that count days agree: the day of the year and the day of the week with the day on
the time-line, and the weeks that are counted from the first day of a month or year with the day in
it.
-/

namespace DateTimeText

namespace Date

variable {d : Date}

theorem Valid.field_mem_range (h : d.Valid) {f : Field} {x : Int} (hx : d.field f = some x) :
    x ∈ f.range := by
  obtain ⟨hyear, hcal⟩ := valid_iff.1 h
  have hepoch := hcal.toEpochDays_mem_range_iff.2 hyear
  have hmonth := hcal.one_le_month
  have hmonth' := hcal.month_le
  have hday := hcal.one_le_day
  have hday' := hcal.day_le_thirty_one
  have hfirst := hcal.one_le_dayOfYear
  have hlast := hcal.dayOfYear_le_daysInYear
  have hlength := (daysInYear_pos d.year).2
  simp only [ValueRange.mem_def, Field.range, ValueRange.fixed] at hyear hepoch
  cases f <;> cases hx <;>
    simp only [ValueRange.mem_def, Field.range, ValueRange.fixed, ValueRange.variableMax,
      dayOfWeek] <;>
    omega

/-- The days of the year are the days of the time-line from January 1 on. -/
theorem InCalendar.dayOfYear_eq (h : d.InCalendar) :
    d.dayOfYear = d.toEpochDays - (⟨d.year, 1, 1⟩ : Date).toEpochDays + 1 := by
  have hfirst : (⟨d.year, 1, 1⟩ : Date).InCalendar :=
    ⟨Nat.le_refl 1, show 1 ≤ 12 by decide, Nat.le_refl 1, daysInMonth_pos ..⟩
  have hone : (⟨d.year, 1, 1⟩ : Date).dayOfYear = 1 := rfl
  rw [h.toEpochDays_eq, hfirst.toEpochDays_eq, hone]
  dsimp only
  omega

theorem InCalendar.dayOfWeek_next (h : d.InCalendar) :
    d.next.dayOfWeek = d.dayOfWeek % 7 + 1 := by
  rw [dayOfWeek, dayOfWeek, h.toEpochDays_next]
  omega

theorem dayOfWeek_eq_fmod (d : Date) : d.dayOfWeek = (d.toEpochDays + 3).fmod 7 + 1 := by
  rw [dayOfWeek, Int.fmod_eq_emod_of_nonneg _ (by decide)]

end Date

namespace Time

variable {t : Time}

theorem Valid.field_mem_range (h : t.Valid) {f : Field} {x : Int} (hx : t.field f = some x) :
    x ∈ f.range := by
  obtain ⟨hhour, hminute, hsecond, hnano⟩ := h
  cases f <;> cases hx <;>
    simp only [ValueRange.mem_def, Field.range, ValueRange.fixed, nanoOfDay, secondOfDay,
      nanosPerSecond] <;>
    omega

end Time

namespace DateTime

variable {dt : DateTime}

/-- A date-time has every field but those of an instant and of an offset. -/
theorem isSome_field_iff (dt : DateTime) (f : Field) :
    (dt.components.field f).isSome = true ↔ f ≠ .instantSeconds ∧ f ≠ .offsetSeconds := by
  cases f <;> simp [components, Components.orElse, Date.components, Time.components, Date.field,
    Time.field]

theorem field_mem_range (hdate : dt.date.Valid) (htime : dt.time.Valid) {f : Field} {x : Int}
    (hx : dt.components.field f = some x) : x ∈ f.range := by
  rcases Option.or_eq_some_iff.1 hx with hx | ⟨-, hx⟩
  · exact hdate.field_mem_range hx
  · exact htime.field_mem_range hx

/-- The fields of a date-time that exists lie in their ranges, so the check of a formatter that reads
some of them in the ISO calendar accepts them. The day of the year is counted from January 1 on, the
day of the week goes on by one each day, and a week and the day in it make the day of the month and
of the year. -/
theorem derived_fields_agree {dt : DateTime} (hdate : dt.date.Valid) (htime : dt.time.Valid) :
    let field (d : Date) := (DateTime.mk d dt.time).components.field
    (∀ f, (field dt.date f).isSome = true ↔ f ≠ .instantSeconds ∧ f ≠ .offsetSeconds) ∧
      (∀ f x, field dt.date f = some x → x ∈ f.range) ∧
      (∀ (formatter : Formatter) text v, formatter.parseStart text = .ok (v, []) →
        formatter.settings.parseChronology v = .iso →
        (∀ f x, v.field f = some x → field dt.date f = some x) → formatter.parse text = .ok v) ∧
      (∃ day first, field dt.date .epochDay = some day ∧
        field ⟨dt.date.year, 1, 1⟩ .epochDay = some first ∧
        field dt.date .dayOfYear = some (day - first + 1)) ∧
      (∀ n ∈ Field.epochDay.range, ∃ d, Date.ofEpochDays n = .ok d ∧
        field d .epochDay = some n ∧ field d .dayOfWeek = some ((n + 3).fmod 7 + 1)) ∧
      (∃ day, field dt.date .dayOfWeek = some day ∧
        field dt.date.next .dayOfWeek = some (day % 7 + 1)) ∧
      (∃ week day, field dt.date .alignedWeekOfMonth = some week ∧
        field dt.date .alignedDayOfWeekInMonth = some day ∧
        field dt.date .dayOfMonth = some (week * 7 + day - 7)) ∧
      ∃ week day, field dt.date .alignedWeekOfYear = some week ∧
        field dt.date .alignedDayOfWeekInYear = some day ∧
        field dt.date .dayOfYear = some (week * 7 + day - 7) := by
  intro field
  have hcal := (Date.valid_iff.1 hdate).2
  refine ⟨dt.isSome_field_iff, fun f x hx => field_mem_range hdate htime hx, ?read,
    ⟨_, _, rfl, rfl, ?dayOfYear⟩, fun n hn => ?dayOfWeek, ⟨_, rfl, ?next⟩,
    ⟨_, _, rfl, rfl, ?month⟩, ⟨_, _, rfl, rfl, ?year⟩⟩
  case read =>
    intro formatter text v hstart hiso hv
    refine Formatter.parse_of_parseStart hstart ?_
    rw [hiso, Components.checkRanges_eq_ok_iff]
    exact fun f x hx => field_mem_range hdate htime (hv f x hx)
  case dayOfYear => exact congrArg some hcal.dayOfYear_eq
  case dayOfWeek =>
    obtain ⟨d, hd, -, rfl⟩ := Date.ofEpochDays_eq_ok hn
    exact ⟨d, hd, rfl, congrArg some d.dayOfWeek_eq_fmod⟩
  case next => exact congrArg some hcal.dayOfWeek_next
  case month =>
    change some (dt.date.day : Int) = some _
    rw [Option.some_inj]
    dsimp only
    omega
  case year =>
    change some dt.date.dayOfYear = some _
    rw [Option.some_inj]
    dsimp only
    omega

/-- The last nanosecond of a leap day before year 0, a Thursday. -/
theorem derived_fields_agree_leap_day :
    let dt : DateTime := ⟨⟨-4, 2, 29⟩, ⟨23, 59, 59, 999999999⟩⟩
    let formatter : Formatter := ⟨[.numeral (.plain .dayOfYear 1 19 .normal)], .root⟩
    let v := Components.empty.set .dayOfYear 60
    (dt.date.Valid ∧ dt.time.Valid ∧ dt.components.field .nanoOfDay = some 86399999999999 ∧
        dt.components.field .dayOfYear = some 60 ∧
        formatter.parseStart ['6', '0'] = .ok (v, [])) ∧
      86399999999999 ∈ Field.nanoOfDay.range ∧
      formatter.parse ['6', '0'] = .ok v ∧
      (DateTime.mk ⟨-4, 3, 1⟩ dt.time).components.field .dayOfWeek = some 5 := by
  intro dt formatter v
  have hdate : dt.date.Valid := by decide
  have htime : dt.time.Valid := by decide
  have hnano : dt.components.field .nanoOfDay = some 86399999999999 := by decide
  have hstart : formatter.parseStart ['6', '0'] = .ok (v, []) := rfl
  obtain ⟨-, hrange, hread, -, -, ⟨day, hday, hnext⟩, -, -⟩ := derived_fields_agree hdate htime
  refine ⟨⟨hdate, htime, hnano, rfl, hstart⟩, hrange .nanoOfDay _ hnano, ?_, ?_⟩
  · refine hread formatter ['6', '0'] v hstart rfl fun f x hx => ?_
    rw [Components.field_set] at hx
    split at hx
    · cases hx
      subst f
      rfl
    · cases hx
  · have hthursday : dt.components.field .dayOfWeek = some 4 := by decide
    obtain rfl : (4 : Int) = day := Option.some.inj (hthursday.symm.trans hday)
    exact hnext

end DateTime

end DateTimeText
