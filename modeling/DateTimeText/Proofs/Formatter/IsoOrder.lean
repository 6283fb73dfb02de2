import DateTimeText.Formatter.Iso
import DateTimeText.Proofs.DateTime.Order
import DateTimeText.Proofs.Formatter.IsoDates
import DateTimeText.Proofs.Text.Order

/-!
# ISO texts in the order of the time-line

The ISO text of a local date-time has its parts from the year down, each of one width while the year
has four digits and no sign. So texts are in the order of their date-times, whatever length the
fractions of their seconds have: only zeros are left out at the end of a fraction.
-/

namespace DateTimeText

namespace Iso

variable {s t : List Char}

theorem zeroPadded_nano {width n nano : Nat} (hpos : 0 < width) (hwidth : width ≤ 9)
    (hvalue : n * 1000000000 / tenPow width = nano) :
    zeroPadded 9 nano = zeroPadded width n ++ List.replicate (9 - width) '0' := by
  rw [← hvalue, mul_div_tenPow hwidth, ← zeroPadded_mul_tenPow hpos, Nat.add_sub_cancel' hwidth]

/-- Fractions are in the order of the nanoseconds, however many digits each has. -/
theorem IsFraction.lt {m n : Nat} (hs : IsFraction m s) (ht : IsFraction n t)
    (hn : n < 1000000000) (h : m < n) : s < t := by
  cases ht with
  | none => exact absurd h (Nat.not_lt_zero m)
  | @digits width b _ _ hwidth hpos hb hvalue =>
      -- Both are compared as nine digits, of which each lacks some zeros at the end.
      cases hs with
      | none => exact List.nil_lt_cons _ _
      | @digits width' a _ _ hwidth' hpos' ha hvalue' =>
          rw [List.cons_lt_cons_self]
          have hpadded := zeroPadded_lt_zeroPadded (show 0 < 9 by decide) hn h
          rw [zeroPadded_nano hpos' hwidth' hvalue', zeroPadded_nano hpos hwidth hvalue] at hpadded
          apply lt_of_append_zeros_lt _ (fun c => zero_le_of_mem_zeroPadded) hpadded
          rw [length_zeroPadded_of_lt hpos' ha, length_zeroPadded_of_lt hpos hb,
            Nat.add_sub_cancel' hwidth', Nat.add_sub_cancel' hwidth]

theorem clockText_lt {t u : Time} (hu : u.Valid) {fraction fraction' : List Char}
    (ht : IsFraction t.nano fraction) (hfraction : IsFraction u.nano fraction') (h : t < u) :
    clockText t fraction < clockText u fraction' := by
  obtain ⟨hhour, hminute, hsecond, hnano⟩ := hu
  have htwo : ∀ {n}, n < 60 → n < tenPow 2 := fun hn => Nat.lt_trans hn (by decide)
  rw [Time.lt_def] at h
  refine zeroPadded_append_lt (by decide) (htwo (by omega)) (h.imp_right (And.imp_right ?_))
  intro h
  rw [List.cons_lt_cons_self]
  refine zeroPadded_append_lt (by decide) (htwo hminute) (h.imp_right (And.imp_right ?_))
  intro h
  rw [List.cons_lt_cons_self]
  refine zeroPadded_append_lt (by decide) (htwo hsecond) (h.imp_right (And.imp_right ?_))
  exact ht.lt hfraction hnano

theorem dateText_of_year {date : Date} {year : Nat} (hyear : date.year = year) (hlt : year < 10000) :
    dateText date = zeroPadded 4 year ++ '-' :: (zeroPadded 2 date.month ++
      '-' :: zeroPadded 2 date.day) := by
  have hsign : Instant.yearSign year = [] := by
    rw [Instant.yearSign, if_neg (by omega), if_neg (by omega)]
  rw [dateText, Instant.yearText_eq, hyear, hsign, Int.natAbs_natCast, List.nil_append]

end Iso

/-- A date-time of a year from 0 to 9999. -/
structure DateTime.FourDigitYear (d : DateTime) : Prop where
  date_valid : d.date.Valid
  time_valid : d.time.Valid
  zero_le_year : 0 ≤ d.date.year
  year_le : d.date.year ≤ 9999

namespace Iso

variable {d e : DateTime} {fraction fraction' : List Char}

theorem dateTimeText_lt (hd : d.FourDigitYear) (he : e.FourDigitYear)
    (hfraction : IsFraction d.time.nano fraction) (hfraction' : IsFraction e.time.nano fraction')
    (h : d < e) :
    dateText d.date ++ 'T' :: clockText d.time fraction <
      dateText e.date ++ 'T' :: clockText e.time fraction' := by
  obtain ⟨year, hyear⟩ := Int.eq_ofNat_of_zero_le hd.zero_le_year
  obtain ⟨year', hyear'⟩ := Int.eq_ofNat_of_zero_le he.zero_le_year
  have hlt : year < 10000 := by have := hd.year_le; omega
  have hlt' : year' < 10000 := by have := he.year_le; omega
  have hcalendar := (Date.valid_iff.1 he.date_valid).2
  have hmonth : e.date.month < tenPow 2 := Nat.lt_of_le_of_lt hcalendar.month_le (by decide)
  have hday : e.date.day < tenPow 2 :=
    Nat.lt_of_le_of_lt hcalendar.day_le_thirty_one (by decide)
  have horder : year < year' ∨ year = year' ∧ (d.date.month < e.date.month ∨
      d.date.month = e.date.month ∧ (d.date.day < e.date.day ∨
        d.date.day = e.date.day ∧ d.time < e.time)) := by
    rcases DateTime.lt_def.1 h with hdate | ⟨hdate, htime⟩
    · rw [Date.lt_def, hyear, hyear'] at hdate
      omega
    · rw [hdate] at hyear
      exact .inr ⟨by omega, .inr ⟨congrArg _ hdate, .inr ⟨congrArg _ hdate, htime⟩⟩⟩
  simp only [dateText_of_year hyear hlt, dateText_of_year hyear' hlt', List.append_assoc,
    List.cons_append]
  refine zeroPadded_append_lt (by decide) hlt' (horder.imp_right (And.imp_right ?_))
  intro horder
  rw [List.cons_lt_cons_self]
  refine zeroPadded_append_lt (by decide) hmonth (horder.imp_right (And.imp_right ?_))
  intro horder
  rw [List.cons_lt_cons_self]
  refine zeroPadded_append_lt (by decide) hday (horder.imp_right (And.imp_right ?_))
  intro htime
  rw [List.cons_lt_cons_self]
  exact clockText_lt he.time_valid hfraction hfraction' htime

end Iso

namespace Formatter

theorem format_isoLocalDateTime {d : DateTime} (hdate : d.date.Valid) (htime : d.time.Valid) :
    ∃ fraction, Iso.IsFraction d.time.nano fraction ∧
      isoLocalDateTime.format d.components =
        .ok (Iso.dateText d.date ++ 'T' :: Iso.clockText d.time fraction) := by
  obtain ⟨fraction, hfraction, hlocal⟩ :
      ∃ fraction, Iso.IsFraction d.time.nano fraction ∧
        Node.renderAllWith (Node.renderTo .root d.components 0) .root d.components
            Iso.localDateTime =
          .ok (some (Iso.dateText d.date ++ 'T' :: Iso.clockText d.time fraction)) :=
    Node.renderAllWith_localDateTime rfl (Date.valid_iff.1 hdate).2 hdate.length_year_le htime
      fun _ _ => rfl
  exact ⟨fraction, hfraction, format_of_render (Node.renderWith_group hlocal false)⟩

/-- Date-times of the years 0 to 9999 are written as texts that are in the order of the date-times,
which is that of the time-line, and are the same for the same date-time only. -/
theorem format_isoLocalDateTime_lt_iff {d e : DateTime} (hd : d.FourDigitYear)
    (he : e.FourDigitYear) :
    ∃ s t, isoLocalDateTime.format d.components = .ok s ∧
      isoLocalDateTime.format e.components = .ok t ∧ (d < e ↔ s < t) ∧
      (d < e ↔ d.toEpochSeconds 0 < e.toEpochSeconds 0 ∨
        d.toEpochSeconds 0 = e.toEpochSeconds 0 ∧ d.time.nano < e.time.nano) ∧
      (d ≠ e → s ≠ t) := by
  obtain ⟨fraction, hfraction, hs⟩ := format_isoLocalDateTime hd.date_valid hd.time_valid
  obtain ⟨fraction', hfraction', ht⟩ := format_isoLocalDateTime he.date_valid he.time_valid
  have hlt := Iso.dateTimeText_lt hd he hfraction hfraction'
  have hgt := Iso.dateTimeText_lt he hd hfraction' hfraction
  have htimeline := DateTime.lt_iff_toEpochSeconds (Date.valid_iff.1 hd.date_valid).2
    hd.time_valid (Date.valid_iff.1 he.date_valid).2 he.time_valid
  refine ⟨_, _, hs, ht, ⟨hlt, fun h => ?_⟩, htimeline, fun hne h => ?_⟩
  · rcases DateTime.lt_or_eq_or_gt d e with hde | rfl | hed
    · exact hde
    · have hsame := Except.ok.inj (hs.symm.trans ht)
      rw [hsame] at h
      exact absurd h (List.lt_irrefl _)
    · exact absurd (hgt hed) (List.lt_asymm h)
  · rw [h] at hlt hgt
    rcases DateTime.lt_or_eq_or_gt d e with hde | hde | hed
    · exact List.lt_irrefl _ (hlt hde)
    · exact hne hde
    · exact List.lt_irrefl _ (hgt hed)

/-- Without a fraction, the text is a start of the later one. -/
theorem format_isoLocalDateTime_lt_of_fraction :
    DateTime.FourDigitYear ⟨⟨0, 2, 29⟩, ⟨23, 59, 59, 0⟩⟩ ∧
      DateTime.FourDigitYear ⟨⟨0, 2, 29⟩, ⟨23, 59, 59, 50000000⟩⟩ ∧
      (⟨⟨0, 2, 29⟩, ⟨23, 59, 59, 0⟩⟩ : DateTime) < ⟨⟨0, 2, 29⟩, ⟨23, 59, 59, 50000000⟩⟩ ∧
      "0000-02-29T23:59:59".toList < "0000-02-29T23:59:59.05".toList := by
  have hd : DateTime.FourDigitYear ⟨⟨0, 2, 29⟩, ⟨23, 59, 59, 0⟩⟩ :=
    ⟨by decide, by decide, by decide, by decide⟩
  have he : DateTime.FourDigitYear ⟨⟨0, 2, 29⟩, ⟨23, 59, 59, 50000000⟩⟩ :=
    ⟨by decide, by decide, by decide, by decide⟩
  have hde : (⟨⟨0, 2, 29⟩, ⟨23, 59, 59, 0⟩⟩ : DateTime) < ⟨⟨0, 2, 29⟩, ⟨23, 59, 59, 50000000⟩⟩ :=
    .inr ⟨rfl, .inr ⟨rfl, .inr ⟨rfl, .inr ⟨rfl, by decide⟩⟩⟩⟩
  obtain ⟨s, t, hs, ht, hlt, -⟩ := format_isoLocalDateTime_lt_iff hd he
  obtain rfl : "0000-02-29T23:59:59".toList = s := Except.ok.inj ((by rfl : _ = _).symm.trans hs)
  obtain rfl : "0000-02-29T23:59:59.05".toList = t := Except.ok.inj ((by rfl : _ = _).symm.trans ht)
  exact ⟨hd, he, hde, hlt.1 hde⟩

end Formatter

end DateTimeText
