import DateTimeText.Proofs.Date.EpochDays
import DateTimeText.Proofs.DateTime.EpochSeconds

/-!
# Counting days

Days are counted from 1970-01-01, one for each date of the calendar, forwards and backwards without
end. The days of `Date.toEpochDays` are those that are counted, in every year, and a second of the
time-line belongs to exactly one date and time of day.
-/

namespace DateTimeText

namespace Date

/-- The date after a date. -/
def next (d : Date) : Date :=
  if d.day < daysInMonth d.year d.month then { d with day := d.day + 1 }
  else if d.month < 12 then ⟨d.year, d.month + 1, 1⟩
  else ⟨d.year + 1, 1, 1⟩

/-- The days from 1970-01-01 to a date, counted one by one. -/
inductive IsDay : Int → Date → Prop
  | epoch : IsDay 0 ⟨1970, 1, 1⟩
  | next {n : Int} {d : Date} (h : IsDay n d) : IsDay (n + 1) d.next
  | previous {n : Int} {d : Date} (hd : d.InCalendar) (h : IsDay (n + 1) d.next) : IsDay n d

theorem daysInMonth_pos (year : Int) (month : Nat) : 1 ≤ daysInMonth year month := by
  rw [daysInMonth]
  split
  · split <;> omega
  · split <;> omega

variable {d : Date}

theorem InCalendar.next (h : d.InCalendar) : d.next.InCalendar := by
  have hday := h.day_le
  unfold Date.next
  split
  · exact ⟨h.one_le_month, h.month_le, Nat.succ_pos _, by assumption⟩
  split
  · exact ⟨Nat.succ_pos _, by assumption, Nat.le_refl 1, daysInMonth_pos ..⟩
  · exact ⟨Nat.le_refl 1, Nat.le_add_left 1 11, Nat.le_refl 1, daysInMonth_pos ..⟩

theorem InCalendar.toEpochDays_next (h : d.InCalendar) :
    d.next.toEpochDays = d.toEpochDays + 1 := by
  have hday := h.day_le
  rw [h.next.toEpochDays_eq, h.toEpochDays_eq]
  unfold Date.next dayOfYear
  split
  · dsimp only
    omega
  split
  · dsimp only
    rw [daysBeforeMonth_add_one h.one_le_month]
    omega
  · -- The last day of a year: its months are over.
    obtain ⟨year, month, day⟩ := d
    obtain rfl : month = 12 := by
      have hmonth := h.month_le
      dsimp only at *
      omega
    have hyear := daysBeforeMonth_thirteen year
    have hlast : daysBeforeMonth year 13 = daysBeforeMonth year 12 + daysInMonth year 12 :=
      daysBeforeMonth_add_one (by decide)
    have hfirst : daysBeforeMonth (year + 1) 1 = 0 := rfl
    dsimp only at *
    rw [daysBeforeYear_add_one, hfirst]
    omega

/-- Every date comes after another one. -/
theorem InCalendar.exists_next_eq (h : d.InCalendar) : ∃ p : Date, p.InCalendar ∧ p.next = d := by
  obtain ⟨year, month, day⟩ := d
  obtain ⟨h1, h12, hfirst, hlast⟩ := h
  dsimp only at h1 h12 hfirst hlast
  by_cases hday : 1 < day
  · refine ⟨⟨year, month, day - 1⟩, ⟨h1, h12, by dsimp only; omega, by dsimp only; omega⟩, ?_⟩
    have hlt : day - 1 < daysInMonth year month := by omega
    rw [Date.next, if_pos hlt, Nat.sub_add_cancel hfirst]
  obtain rfl : day = 1 := by omega
  by_cases hmonth : 1 < month
  · refine ⟨⟨year, month - 1, daysInMonth year (month - 1)⟩, ⟨by dsimp only; omega,
      by dsimp only; omega, ?_, Nat.le_refl _⟩, ?_⟩
    · exact daysInMonth_pos ..
    · have hlt : month - 1 < 12 := by omega
      rw [Date.next, if_neg (Nat.lt_irrefl _), if_pos hlt, Nat.sub_add_cancel h1]
  · obtain rfl : month = 1 := by omega
    refine ⟨⟨year - 1, 12, 31⟩, ⟨Nat.le_add_left 1 11, Nat.le_refl _, Nat.le_add_left 1 30,
      Nat.le_refl _⟩, ?_⟩
    have hlt : ¬ 31 < daysInMonth (year - 1) 12 := Nat.lt_irrefl _
    rw [Date.next, if_neg hlt, if_neg (Nat.lt_irrefl 12), Int.sub_add_cancel]

theorem IsDay.inCalendar {n : Int} (h : IsDay n d) : d.InCalendar := by
  induction h with
  | epoch => exact ⟨by decide, by decide, by decide, by decide⟩
  | next _ ih => exact ih.next
  | previous hd _ _ => exact hd

theorem IsDay.toEpochDays_eq {n : Int} (h : IsDay n d) : d.toEpochDays = n := by
  induction h with
  | epoch => decide
  | next h ih => rw [h.inCalendar.toEpochDays_next, ih]
  | previous hd _ ih =>
      rw [hd.toEpochDays_next] at ih
      omega

/-- The days that are counted are those of the closed form. Induction on the day: away from
1970-01-01 on either side, by the date before and by the date after. -/
theorem isDay_iff {n : Int} : IsDay n d ↔ d.InCalendar ∧ d.toEpochDays = n := by
  refine ⟨fun h => ⟨h.inCalendar, h.toEpochDays_eq⟩, ?_⟩
  rintro ⟨hd, hn⟩
  have hepoch : (⟨1970, 1, 1⟩ : Date).InCalendar := IsDay.epoch.inCalendar
  induction n using Int.induction_on generalizing d with
  | zero =>
      obtain rfl : d = ⟨1970, 1, 1⟩ := hd.eq_of_toEpochDays_eq hepoch hn
      exact .epoch
  | succ n ih =>
      obtain ⟨p, hp, rfl⟩ := hd.exists_next_eq
      rw [hp.toEpochDays_next] at hn
      exact .next (ih hp (by omega))
  | pred n ih =>
      refine .previous hd ?_
      rw [Int.sub_add_cancel]
      exact ih hd.next (by rw [hd.toEpochDays_next]; omega)

end Date

namespace Time

theorem Valid.eq_of_secondOfDay_eq {t u : Time} (ht : t.Valid) (hu : u.Valid)
    (hsecond : t.secondOfDay = u.secondOfDay) (hnano : t.nano = u.nano) : t = u := by
  obtain ⟨hour, minute, second, nano⟩ := t
  obtain ⟨hour', minute', second', nano'⟩ := u
  obtain ⟨-, hminute, hsecond', -⟩ := ht
  obtain ⟨-, hminute', hsecond'', -⟩ := hu
  simp only [secondOfDay] at *
  simp only [Time.mk.injEq]
  omega

end Time

namespace DateTime

/-- The seconds from 1970-01-01T00:00Z to a date-time at UTC, days counted one by one. -/
def IsSecond (seconds : Int) (dt : DateTime) : Prop :=
  dt.time.Valid ∧ ∃ day, Date.IsDay day dt.date ∧
    seconds = ((day * 24 + dt.time.hour) * 60 + dt.time.minute) * 60 + dt.time.second

theorem isSecond_iff {seconds : Int} {dt : DateTime} :
    IsSecond seconds dt ↔ dt.InCalendar ∧ dt.toEpochSeconds 0 = seconds := by
  rw [toEpochSeconds_zero]
  unfold Time.secondOfDay secondsPerDay
  constructor
  · rintro ⟨htime, day, hday, hseconds⟩
    obtain ⟨hdate, rfl⟩ := Date.isDay_iff.1 hday
    exact ⟨⟨hdate, htime⟩, by omega⟩
  · rintro ⟨hdt, rfl⟩
    exact ⟨hdt.time, _, Date.isDay_iff.2 ⟨hdt.date, rfl⟩, by omega⟩

/-- A second and a nanosecond belong to one date and time of day. -/
theorem IsSecond.unique {seconds : Int} {dt other : DateTime} (hdt : IsSecond seconds dt)
    (hother : IsSecond seconds other) (hnano : dt.time.nano = other.time.nano) : dt = other := by
  obtain ⟨⟨hdate, htime⟩, hseconds⟩ := isSecond_iff.1 hdt
  obtain ⟨⟨hdate', htime'⟩, hseconds'⟩ := isSecond_iff.1 hother
  have h0 := dt.time.secondOfDay_nonneg
  have h1 := htime.secondOfDay_lt
  have h0' := other.time.secondOfDay_nonneg
  have h1' := htime'.secondOfDay_lt
  rw [toEpochSeconds_zero, secondsPerDay] at hseconds hseconds'
  unfold secondsPerDay at h1 h1'
  have hday : dt.date = other.date := hdate.eq_of_toEpochDays_eq hdate' (by omega)
  rw [hday] at hseconds
  have hclock : dt.time = other.time := htime.eq_of_secondOfDay_eq htime' (by omega) hnano
  cases dt
  cases other
  exact congrArg₂ DateTime.mk hday hclock

end DateTime

end DateTimeText
