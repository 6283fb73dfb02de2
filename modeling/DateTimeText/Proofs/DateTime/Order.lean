import DateTimeText.Proofs.DateTime.EpochSeconds

/-!
# Date-times in the order of the time-line

Date-times are in the order of their dates, and on one date in the order of their times of day. This
is the order of their seconds of the time-line, and within a second that of their nanoseconds.
-/

namespace DateTimeText

namespace Time

instance : LT Time where
  lt t u := t.hour < u.hour ∨ t.hour = u.hour ∧ (t.minute < u.minute ∨
    t.minute = u.minute ∧ (t.second < u.second ∨ t.second = u.second ∧ t.nano < u.nano))

variable {t u : Time}

theorem lt_def : t < u ↔ t.hour < u.hour ∨ t.hour = u.hour ∧ (t.minute < u.minute ∨
    t.minute = u.minute ∧ (t.second < u.second ∨ t.second = u.second ∧ t.nano < u.nano)) := Iff.rfl

theorem lt_or_eq_or_gt (t u : Time) : t < u ∨ t = u ∨ u < t := by
  obtain ⟨hour, minute, second, nano⟩ := t
  obtain ⟨hour', minute', second', nano'⟩ := u
  simp only [lt_def, Time.mk.injEq]
  omega

theorem Valid.lt_iff_secondOfDay (ht : t.Valid) (hu : u.Valid) :
    t < u ↔ t.secondOfDay < u.secondOfDay ∨ t.secondOfDay = u.secondOfDay ∧ t.nano < u.nano := by
  obtain ⟨hhour, hminute, hsecond, -⟩ := ht
  obtain ⟨hhour', hminute', hsecond', -⟩ := hu
  rw [lt_def, secondOfDay, secondOfDay]
  omega

end Time

namespace DateTime

instance : LT DateTime where
  lt d e := d.date < e.date ∨ d.date = e.date ∧ d.time < e.time

variable {d e : DateTime}

theorem lt_def : d < e ↔ d.date < e.date ∨ d.date = e.date ∧ d.time < e.time := Iff.rfl

theorem lt_or_eq_or_gt (d e : DateTime) : d < e ∨ d = e ∨ e < d := by
  obtain ⟨date, time⟩ := d
  obtain ⟨date', time'⟩ := e
  simp only [lt_def, DateTime.mk.injEq]
  rcases Date.lt_or_eq_or_gt date date' with hlt | rfl | hgt
  · exact .inl (.inl hlt)
  · rcases Time.lt_or_eq_or_gt time time' with hlt | rfl | hgt
    · exact .inl (.inr ⟨rfl, hlt⟩)
    · exact .inr (.inl ⟨rfl, rfl⟩)
    · exact .inr (.inr (.inr ⟨rfl, hgt⟩))
  · exact .inr (.inr (.inl hgt))

theorem lt_iff_toEpochSeconds (hd : d.date.InCalendar) (hdt : d.time.Valid)
    (he : e.date.InCalendar) (het : e.time.Valid) :
    d < e ↔ d.toEpochSeconds 0 < e.toEpochSeconds 0 ∨
      d.toEpochSeconds 0 = e.toEpochSeconds 0 ∧ d.time.nano < e.time.nano := by
  have hdate := hd.toEpochDays_lt_iff he
  have hsame : d.date = e.date ↔ d.date.toEpochDays = e.date.toEpochDays :=
    ⟨congrArg _, hd.eq_of_toEpochDays_eq he⟩
  have hdfirst := d.time.secondOfDay_nonneg
  have hefirst := e.time.secondOfDay_nonneg
  have hdlast := hdt.secondOfDay_lt
  have helast := het.secondOfDay_lt
  rw [secondsPerDay] at hdlast helast
  rw [lt_def, ← hdate, hsame, hdt.lt_iff_secondOfDay het, toEpochSeconds, toEpochSeconds,
    secondsPerDay]
  omega

end DateTime

end DateTimeText
