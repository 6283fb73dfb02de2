import DateTimeText.DateTime
import DateTimeText.Proofs.Date.EpochDays

/-!
# Date-times of seconds

A second of the time-line is a day and a second of this day, and the time of day is found from its
nanoseconds. Four hundred years later the calendar is the same, so a date-time may be moved by whole
cycles, to years that are out of range as well.
-/

namespace DateTimeText

namespace Time

theorem secondOfDay_nonneg (t : Time) : 0 ≤ t.secondOfDay := by
  unfold secondOfDay
  omega

theorem Valid.secondOfDay_lt {t : Time} (h : t.Valid) : t.secondOfDay < secondsPerDay := by
  obtain ⟨hhour, hminute, hsecond, -⟩ := h
  unfold secondOfDay secondsPerDay
  omega

/-- The nanoseconds of a day are those of its seconds and those within a second. -/
theorem ofNanoOfDay_eq_ok {second : Int} {nano : Nat} (h0 : 0 ≤ second)
    (hday : second < secondsPerDay) (hnano : nano < 1000000000) :
    ∃ t, ofNanoOfDay (second * nanosPerSecond + nano) = .ok t ∧ t.Valid ∧ t.secondOfDay = second ∧
      t.nano = nano := by
  have hmem : second * nanosPerSecond + nano ∈ Field.nanoOfDay.range := by
    simp only [secondsPerDay] at hday
    simp only [ValueRange.mem_def, Field.range, ValueRange.fixed, nanosPerSecond]
    omega
  have hcheck : Field.nanoOfDay.range.check .nanoOfDay (second * nanosPerSecond + nano) =
      .ok (second * nanosPerSecond + nano) := if_pos hmem
  have hsecond : (second * nanosPerSecond + nano) / nanosPerSecond = second := by
    unfold nanosPerSecond
    omega
  have hrest : (second * nanosPerSecond + nano) % nanosPerSecond = nano := by
    unfold nanosPerSecond
    omega
  unfold secondsPerDay at hday
  refine ⟨⟨(second / 3600).toNat, (second / 60 % 60).toNat, (second % 60).toNat, nano⟩,
    ?_, ?_, ?_, ?_⟩
  · rw [ofNanoOfDay, hcheck]
    simp only [bind, Except.bind, pure, Except.pure, hsecond, hrest]
    rfl
  · refine ⟨?_, ?_, ?_, ?_⟩ <;> dsimp only <;> omega
  · unfold secondOfDay
    dsimp only
    omega
  · rfl

end Time

namespace Date

variable {d : Date}

/-- The date of the same month and day, four hundred years later for each cycle. -/
def addCycles (d : Date) (cycles : Int) : Date :=
  { d with year := d.year + cycles * 400 }

theorem daysInMonth_add_cycles (year cycles : Int) (month : Nat) :
    daysInMonth (year + cycles * 400) month = daysInMonth year month := by
  unfold daysInMonth
  rw [isLeapYear_add_cycles]

theorem daysBeforeMonth_add_cycles (year cycles : Int) (month : Nat) :
    daysBeforeMonth (year + cycles * 400) month = daysBeforeMonth year month := by
  induction month using daysBeforeMonth.induct with
  | case1 => rfl
  | case2 => rfl
  | case3 m ih =>
      rw [daysBeforeMonth, daysBeforeMonth, daysInMonth_add_cycles, ih]

theorem InCalendar.addCycles (h : d.InCalendar) (cycles : Int) :
    (d.addCycles cycles).InCalendar := by
  obtain ⟨h1, h12, hfirst, hlast⟩ := h
  refine ⟨h1, h12, hfirst, ?_⟩
  rwa [Date.addCycles, daysInMonth_add_cycles]

theorem InCalendar.toEpochDays_addCycles (h : d.InCalendar) (cycles : Int) :
    (d.addCycles cycles).toEpochDays = d.toEpochDays + cycles * daysPerCycle := by
  have hyears := daysBeforeMarchYear_add_cycles (d.year - 1) cycles
  have hshift : d.year + cycles * 400 - 1 = d.year - 1 + cycles * 400 := by omega
  rw [(h.addCycles cycles).toEpochDays_eq, h.toEpochDays_eq]
  unfold dayOfYear daysBeforeYear
  simp only [Date.addCycles, daysBeforeMonth_add_cycles, hshift, hyears]
  omega

end Date

namespace DateTime

/-- A date-time that exists, in any year. -/
structure InCalendar (dt : DateTime) : Prop where
  date : dt.date.InCalendar
  time : dt.time.Valid

instance (dt : DateTime) : Decidable dt.InCalendar :=
  decidable_of_iff (dt.date.InCalendar ∧ dt.time.Valid)
    ⟨fun ⟨hdate, htime⟩ => ⟨hdate, htime⟩, fun ⟨hdate, htime⟩ => ⟨hdate, htime⟩⟩

theorem toEpochSeconds_zero (dt : DateTime) :
    dt.toEpochSeconds 0 = dt.date.toEpochDays * secondsPerDay + dt.time.secondOfDay := by
  rw [toEpochSeconds, Int.sub_zero]

/-- The seconds whose day is in range have a date-time, from which they are found again. -/
theorem ofEpochSeconds_eq_ok {seconds offset : Int} (hfits : FitsInt64 (seconds + offset))
    (hday : (seconds + offset) / secondsPerDay ∈ Field.epochDay.range) (nanos : Nat) :
    ∃ dt, ofEpochSeconds seconds nanos offset = .ok dt ∧ dt.InCalendar ∧
      dt.toEpochSeconds offset = seconds ∧ dt.time.nano = nanos % 1000000000 := by
  have hdiv := Int.mul_ediv_add_emod (seconds + offset) secondsPerDay
  have hmod0 := Int.emod_nonneg (seconds + offset) (show secondsPerDay ≠ 0 by decide)
  have hmod1 := Int.emod_lt_of_pos (seconds + offset) (show 0 < secondsPerDay by decide)
  obtain ⟨d, hd, hcal, hdays⟩ := Date.ofEpochDays_eq_ok hday
  obtain ⟨t, ht, hvalid, hsecond, hnano⟩ :=
    Time.ofNanoOfDay_eq_ok hmod0 hmod1 (Nat.mod_lt nanos (by decide : 0 < 1000000000))
  refine ⟨⟨d, t⟩, ?_, ⟨hcal, hvalid⟩, ?_, hnano⟩
  · rw [ofEpochSeconds, if_neg (not_not_intro hfits), hd, ht]
    rfl
  · rw [toEpochSeconds, hdays, hsecond, Int.mul_comm]
    omega

/-- The date-time at the same time of day, four hundred years later for each cycle. -/
def addCycles (dt : DateTime) (cycles : Int) : DateTime :=
  { dt with date := dt.date.addCycles cycles }

variable {dt : DateTime}

theorem InCalendar.addCycles (h : dt.InCalendar) (cycles : Int) :
    (dt.addCycles cycles).InCalendar :=
  ⟨h.date.addCycles cycles, h.time⟩

theorem InCalendar.toEpochSeconds_addCycles (h : dt.InCalendar) (cycles offset : Int) :
    (dt.addCycles cycles).toEpochSeconds offset =
      dt.toEpochSeconds offset + cycles * (daysPerCycle * secondsPerDay) := by
  unfold toEpochSeconds DateTime.addCycles
  dsimp only
  rw [h.date.toEpochDays_addCycles, Int.add_mul, Int.mul_assoc]
  omega

theorem InCalendar.lt_daysBeforeYear_iff (h : dt.InCalendar) (year : Int) :
    dt.toEpochSeconds 0 < (daysBeforeYear year - daysToEpoch) * secondsPerDay ↔
      dt.date.year < year := by
  have h0 := dt.time.secondOfDay_nonneg
  have h1 := h.time.secondOfDay_lt
  rw [← h.date.lt_daysBeforeYear_iff, toEpochSeconds_zero]
  unfold secondsPerDay at h1 ⊢
  omega

end DateTime

end DateTimeText
