import DateTimeText.Node.InstantText
import DateTimeText.Proofs.DateTime.EpochSeconds
import DateTimeText.Proofs.Text.Digits

/-!
# The text of an instant

An instant is written in its era of ten thousand years, with the number of the era put into the
text. What comes out is the text of the date-time at its second in the proleptic Gregorian calendar,
whatever the year is.
-/

namespace DateTimeText.Instant

def yearSign (year : Int) : List Char :=
  if year < 0 then ['-'] else if 9999 < year then ['+'] else []

/-- A year is its sign and at least four digits. -/
theorem yearText_eq (year : Int) : yearText year = yearSign year ++ zeroPadded 4 year.natAbs := by
  unfold yearText yearSign
  by_cases hshort : year.natAbs < 1000
  · have hsmall : ¬ 9999 < year := by omega
    rw [if_pos hshort, if_neg hsmall]
  · have hlen : 3 < (decimal year.natAbs).length :=
      (lt_length_decimal_iff (by decide)).2 (Nat.le_of_not_lt hshort)
    rw [if_neg hshort, zeroPadded_of_le hlen, signedDecimal]
    by_cases hneg : year < 0
    · have hsmall : ¬ 9999 < year := by omega
      rw [if_pos hneg, if_pos hneg, if_neg hsmall]
      rfl
    · rw [if_neg hneg, if_neg hneg]

theorem utcText_eq (dt : DateTime) :
    utcText dt = yearSign dt.date.year ++ zeroPadded 4 dt.date.year.natAbs ++ restText dt := by
  rw [utcText, yearText_eq]

/-- A year of more than ten digits starts with the text of one of ten digits. -/
theorem yearText_of_long {year : Int} (h : 10 < (decimal year.natAbs).length) :
    ∃ short width n, yearText year = yearText short ++ zeroPadded width n ∧
      (decimal short.natAbs).length = 10 ∧ (yearText short).length = 11 ∧ 0 < width := by
  obtain ⟨first, more, last, hsplit, hlen, hmore⟩ := decimal_eq_append_of_lt (by decide) h
  have hfirst : tenPow 9 ≤ first := (lt_length_decimal_iff (by decide)).1 (by omega)
  have hyear : tenPow 10 ≤ year.natAbs := (lt_length_decimal_iff (by decide)).1 h
  simp only [tenPow] at hfirst hyear
  have hpad : zeroPadded 4 year.natAbs = decimal year.natAbs := zeroPadded_of_le (by omega)
  have hpad' : zeroPadded 4 first = decimal first := zeroPadded_of_le (by omega)
  by_cases hneg : year < 0
  · have hshort : yearText (-(first : Int)) = '-' :: decimal first := by
      rw [yearText_eq, yearSign, if_pos (by omega), Int.natAbs_neg, Int.natAbs_natCast, hpad']
      rfl
    refine ⟨-first, more, last, ?_, ?_, ?_, hmore⟩
    · rw [yearText_eq, yearSign, if_pos hneg, hpad, hsplit, hshort]
      rfl
    · rw [Int.natAbs_neg, Int.natAbs_natCast, hlen]
    · rw [hshort, List.length_cons, hlen]
  · have hshort : yearText (first : Int) = '+' :: decimal first := by
      rw [yearText_eq, yearSign, if_neg (by omega), if_pos (by omega), Int.natAbs_natCast, hpad']
      rfl
    refine ⟨first, more, last, ?_, ?_, ?_, hmore⟩
    · rw [yearText_eq, yearSign, if_neg hneg, if_pos (by omega), hpad, hsplit, hshort]
      rfl
    · rw [Int.natAbs_natCast, hlen]
    · rw [hshort, List.length_cons, hlen]

/-- A fraction that is not zero is a point and three, six or nine digits. -/
theorem fractionText_eq {nano : Nat} (hzero : nano ≠ 0) (hnano : nano < 1000000000) :
    ∃ width n, fractionText nano = '.' :: zeroPadded width n ∧ width ≤ 9 ∧ 0 < width ∧
      n < tenPow width ∧ n * 1000000000 / tenPow width = nano := by
  unfold fractionText
  rw [if_neg hzero]
  by_cases hmilli : nano % 1000000 = 0
  · rw [if_pos hmilli]
    exact ⟨3, nano / 1000000, rfl, by decide, by decide, by simp only [tenPow]; omega,
      by simp only [tenPow]; omega⟩
  rw [if_neg hmilli]
  by_cases hmicro : nano % 1000 = 0
  · rw [if_pos hmicro]
    exact ⟨6, nano / 1000, rfl, by decide, by decide, by simp only [tenPow]; omega,
      by simp only [tenPow]; omega⟩
  · rw [if_neg hmicro]
    exact ⟨9, nano, rfl, by decide, by decide, by simp only [tenPow]; omega,
      by simp only [tenPow]; omega⟩

theorem utcText_of_natAbs {dt : DateTime} {era y : Nat} (hera : 0 < era) (hy : y < 10000)
    (habs : dt.date.year.natAbs = era * 10000 + y) :
    utcText dt = (if dt.date.year < 0 then '-' else '+') :: decimal era ++ zeroPadded 4 y ++
      restText dt := by
  have hdigits : zeroPadded 4 (era * 10000 + y) = decimal era ++ zeroPadded 4 y :=
    zeroPadded_mul_tenPow_add hera (by decide) hy
  rw [utcText_eq, habs, hdigits, yearSign]
  by_cases hneg : dt.date.year < 0
  · rw [if_pos hneg, if_pos hneg]
    rfl
  · have hlarge : 9999 < dt.date.year := by omega
    rw [if_neg hneg, if_neg hneg, if_pos hlarge]
    rfl

theorem utcText_of_four_digits {dt : DateTime} (h0 : 0 ≤ dt.date.year)
    (h1 : dt.date.year < 10000) :
    utcText dt = zeroPadded 4 dt.date.year.natAbs ++ restText dt := by
  have hnonneg : ¬ dt.date.year < 0 := by omega
  have hsmall : ¬ 9999 < dt.date.year := by omega
  rw [utcText_eq, yearSign, if_neg hnonneg, if_neg hsmall]
  rfl

theorem utcText_of_neg {dt : DateTime} (h : dt.date.year < 0) :
    utcText dt = '-' :: (zeroPadded 4 dt.date.year.natAbs ++ restText dt) := by
  rw [utcText_eq, yearSign, if_pos h]
  rfl

theorem secondsPerEra_eq : secondsPerEra = 25 * (daysPerCycle * secondsPerDay) := by decide

/-- A second less than an era away from year 0 has a date-time. -/
theorem sinceYearZero_eq_ok {seconds : Int} (hlow : -secondsPerEra < seconds)
    (hhigh : seconds < secondsPerEra) {nano : Nat} (hnano : nano < 1000000000) :
    ∃ dt, sinceYearZero seconds nano = .ok dt ∧ dt.InCalendar ∧
      dt.toEpochSeconds 0 = seconds - secondsToEpoch ∧ dt.time.nano = nano := by
  unfold secondsPerEra at hlow hhigh
  have hfits : FitsInt64 (seconds - secondsToEpoch + 0) := by
    unfold FitsInt64 int64Min int64Max secondsToEpoch
    omega
  have hday : (seconds - secondsToEpoch + 0) / secondsPerDay ∈ Field.epochDay.range := by
    simp only [ValueRange.mem_def, Field.range, ValueRange.fixed, secondsPerDay, secondsToEpoch]
    omega
  obtain ⟨dt, hdt, hcal, hseconds, hrest⟩ := DateTime.ofEpochSeconds_eq_ok hfits hday nano
  exact ⟨dt, hdt, hcal, hseconds, by rw [hrest, Nat.mod_eq_of_lt hnano]⟩

/-- The year of a date-time, from the seconds since year 0: the bounds that tell the cases of an era
apart. -/
theorem year_lt_iff_of_sinceYearZero {dt : DateTime} (hcal : dt.InCalendar) {seconds : Int}
    (hseconds : dt.toEpochSeconds 0 = seconds - secondsToEpoch) :
    (dt.date.year < -10000 ↔ seconds < -secondsPerEra) ∧ (dt.date.year < 0 ↔ seconds < 0) ∧
      (dt.date.year < 1 ↔ seconds < 366 * secondsPerDay) ∧
      (dt.date.year < 10000 ↔ seconds < secondsPerEra) := by
  have hyear := hcal.lt_daysBeforeYear_iff
  rw [hseconds] at hyear
  have h0 : (daysBeforeYear (-10000) - daysToEpoch) * secondsPerDay =
      -secondsPerEra - secondsToEpoch := by decide
  have h1 : (daysBeforeYear 0 - daysToEpoch) * secondsPerDay = -secondsToEpoch := by decide
  have h2 : (daysBeforeYear 1 - daysToEpoch) * secondsPerDay =
      366 * secondsPerDay - secondsToEpoch := by decide
  have h3 : (daysBeforeYear 10000 - daysToEpoch) * secondsPerDay =
      secondsPerEra - secondsToEpoch := by decide
  rw [← hyear, ← hyear, ← hyear, ← hyear, h0, h1, h2, h3]
  omega

/-- What an instant of an era is written as. -/
structure Shows (i : InEra) (seconds : Int) (nano : Nat) (dt : DateTime) : Prop where
  inCalendar : dt.InCalendar
  toEpochSeconds : dt.toEpochSeconds 0 = seconds
  nano : dt.time.nano = nano
  text : i.splice.apply 0 (utcText i.dateTime) = utcText dt

/-- A date-time of a second less than an era away from year 0 is moved by whole eras. -/
theorem Shows.of_addCycles {i : InEra} {seconds rest era : Int} {nano : Nat}
    (hcal : i.dateTime.InCalendar) (hrest : i.dateTime.toEpochSeconds 0 = rest - secondsToEpoch)
    (hnano : i.dateTime.time.nano = nano)
    (hseconds : secondsPerEra * era + rest = seconds + secondsToEpoch)
    (htext : i.splice.apply 0 (utcText i.dateTime) = utcText (i.dateTime.addCycles (era * 25))) :
    Shows i seconds nano (i.dateTime.addCycles (era * 25)) where
  inCalendar := hcal.addCycles _
  toEpochSeconds := by
    rw [hcal.toEpochSeconds_addCycles, hrest, Int.mul_assoc, ← secondsPerEra_eq,
      Int.mul_comm era]
    omega
  nano := hnano
  text := htext

theorem year_addCycles (dt : DateTime) (era : Int) :
    (dt.addCycles (era * 25)).date.year = dt.date.year + era * 10000 := by
  change dt.date.year + era * 25 * 400 = dt.date.year + era * 10000
  omega

theorem addCycles_zero (dt : DateTime) : dt.addCycles (0 * 25) = dt := by
  simp [DateTime.addCycles, Date.addCycles]

/-- From year 0 on the era stands in front of the four digits of the year. -/
theorem splice_of_nonneg {i : InEra} (hpast : i.beforeYearZero = false) (hera : 0 ≤ i.era)
    (h0 : 0 ≤ i.dateTime.date.year) (h1 : i.dateTime.date.year < 10000) :
    i.splice.apply 0 (utcText i.dateTime) = utcText (i.dateTime.addCycles (i.era * 25)) := by
  have hyear := year_addCycles i.dateTime i.era
  by_cases hzero : i.era = 0
  · rw [InEra.splice, hpast, hzero, addCycles_zero]
    rfl
  · have hpos : 0 < i.era := by omega
    have habs : (i.dateTime.addCycles (i.era * 25)).date.year.natAbs =
        i.era.natAbs * 10000 + i.dateTime.date.year.natAbs := by omega
    have htext := utcText_of_natAbs (Int.natAbs_pos.2 hzero) (by omega) habs
    have hnonneg : ¬ i.dateTime.date.year + i.era * 10000 < 0 := by omega
    rw [htext, hyear, if_neg hnonneg, utcText_of_four_digits h0 h1, InEra.splice, hpast]
    simp [hpos, Splice.apply, restText, DateTime.addCycles, Date.addCycles]

/-- Before year 0 the era stands behind the sign. The year −10000 belongs to the era before it, of
which it is the year 0, and the very start of an era is in a year 0 without a sign. -/
theorem splice_of_neg {i : InEra} (hpast : i.beforeYearZero = true) (hera : i.era ≤ 0)
    (hlow : -10000 ≤ i.dateTime.date.year)
    (hstart : i.atStart = true → i.dateTime.date.year = 0)
    (hneg : i.atStart = false → i.dateTime.date.year < 0) :
    i.splice.apply 0 (utcText i.dateTime) = utcText (i.dateTime.addCycles (i.era * 25)) := by
  have hyear := year_addCycles i.dateTime i.era
  have hrest : restText (i.dateTime.addCycles (i.era * 25)) = restText i.dateTime := rfl
  by_cases hzero : i.era = 0
  · rw [InEra.splice, hpast, hzero, addCycles_zero]
    rfl
  have hbefore : i.era < 0 := by omega
  -- The sign and the first digit of −10000 make way for the era before.
  by_cases hlast : i.dateTime.date.year = -10000
  · have habs : (i.dateTime.addCycles (i.era * 25)).date.year.natAbs =
        (i.era - 1).natAbs * 10000 + 0 := by omega
    have htext := utcText_of_natAbs (by omega) (by decide) habs
    have hsign : i.dateTime.date.year + i.era * 10000 < 0 := by omega
    have hinserted : i.era - 1 < 0 := by omega
    rw [htext, hyear, if_pos hsign, hrest, utcText_of_neg (by omega), hlast, InEra.splice, hpast,
      hlast, if_pos rfl, if_pos hbefore, if_pos rfl]
    have hdigits : zeroPadded 4 (-10000 : Int).natAbs = '1' :: zeroPadded 4 0 := by decide
    simp only [Splice.apply, signedDecimal, if_pos hinserted, hdigits]
    simp
  cases hat : i.atStart with
  | true =>
      have hy := hstart hat
      have habs : (i.dateTime.addCycles (i.era * 25)).date.year.natAbs =
          i.era.natAbs * 10000 + 0 := by omega
      have htext := utcText_of_natAbs (Int.natAbs_pos.2 hzero) (by decide) habs
      have hsign : i.dateTime.date.year + i.era * 10000 < 0 := by omega
      rw [htext, hyear, if_pos hsign, hrest, utcText_of_four_digits (by omega) (by omega), hy,
        InEra.splice, hpast, if_pos rfl, if_pos hbefore, if_neg hlast, if_pos hat]
      simp only [Splice.apply, signedDecimal, if_pos hbefore]
      simp
  | false =>
      have hy := hneg hat
      have habs : (i.dateTime.addCycles (i.era * 25)).date.year.natAbs =
          i.era.natAbs * 10000 + i.dateTime.date.year.natAbs := by omega
      have htext := utcText_of_natAbs (Int.natAbs_pos.2 hzero) (by omega) habs
      have hsign : i.dateTime.date.year + i.era * 10000 < 0 := by omega
      rw [htext, hyear, if_pos hsign, hrest, utcText_of_neg hy, InEra.splice, hpast, if_pos rfl,
        if_pos hbefore, if_neg hlast, hat]
      simp [Splice.apply]

theorem inEra_of_nonneg {seconds : Int} (h : -secondsToEpoch ≤ seconds) {nano : Nat}
    (hnano : nano < 1000000000) : ∃ i dt, inEra seconds nano = .ok i ∧ Shows i seconds nano dt := by
  have hpos : (0 : Int) < secondsPerEra := by decide
  have hmod0 := Int.emod_nonneg (seconds - secondsPerEra + secondsToEpoch) (Int.ne_of_gt hpos)
  have hmod1 := Int.emod_lt_of_pos (seconds - secondsPerEra + secondsToEpoch) hpos
  have hdiv := Int.mul_ediv_add_emod (seconds - secondsPerEra + secondsToEpoch) secondsPerEra
  unfold inEra
  rw [if_pos h]
  dsimp only
  generalize (seconds - secondsPerEra + secondsToEpoch) % secondsPerEra = rest at *
  generalize (seconds - secondsPerEra + secondsToEpoch) / secondsPerEra = quotient at *
  obtain ⟨dt, hdt, hcal, hseconds, hnano'⟩ :=
    sinceYearZero_eq_ok (Int.lt_of_lt_of_le (by decide : -secondsPerEra < 0) hmod0) hmod1 hnano
  obtain ⟨-, hneg, -, hlast⟩ := year_lt_iff_of_sinceYearZero hcal hseconds
  have hera : 0 ≤ quotient + 1 := by
    unfold secondsPerEra secondsToEpoch at *
    omega
  have h0 : 0 ≤ dt.date.year := by omega
  have h1 : dt.date.year < 10000 := by omega
  have hsum : secondsPerEra * (quotient + 1) + rest = seconds + secondsToEpoch := by
    rw [Int.mul_add]
    omega
  let i : InEra := ⟨quotient + 1, dt, decide (rest = 0), false⟩
  have htext : i.splice.apply 0 (utcText i.dateTime) =
      utcText (i.dateTime.addCycles (i.era * 25)) :=
    splice_of_nonneg rfl hera h0 h1
  refine ⟨i, dt.addCycles ((quotient + 1) * 25), ?_,
    Shows.of_addCycles hcal hseconds hnano' hsum htext⟩
  rw [hdt]
  rfl

theorem inEra_of_neg {seconds : Int} (h : seconds < -secondsToEpoch) {nano : Nat}
    (hnano : nano < 1000000000) : ∃ i dt, inEra seconds nano = .ok i ∧ Shows i seconds nano dt := by
  have hpos : (0 : Int) < secondsPerEra := by decide
  have hdiv := Int.mul_tdiv_add_tmod (seconds + secondsToEpoch) secondsPerEra
  -- Eras are counted towards year 0: the quotient is truncated and the rest is not positive.
  have htmod : (seconds + secondsToEpoch).tmod secondsPerEra =
      -(-(seconds + secondsToEpoch) % secondsPerEra) := by
    rw [← Int.tmod_eq_emod_of_nonneg (by omega), Int.neg_tmod, Int.neg_neg]
  have hmod0 := Int.emod_nonneg (-(seconds + secondsToEpoch)) (Int.ne_of_gt hpos)
  have hmod1 := Int.emod_lt_of_pos (-(seconds + secondsToEpoch)) hpos
  unfold inEra
  rw [if_neg (by omega)]
  dsimp only
  generalize -(seconds + secondsToEpoch) % secondsPerEra = back at *
  rw [htmod] at hdiv ⊢
  generalize (seconds + secondsToEpoch).tdiv secondsPerEra = era at *
  have hlow : -secondsPerEra < -back := by omega
  have hhigh : -back < secondsPerEra := by omega
  obtain ⟨dt, hdt, hcal, hseconds, hnano'⟩ := sinceYearZero_eq_ok hlow hhigh hnano
  obtain ⟨hfirst, hneg, hone, -⟩ := year_lt_iff_of_sinceYearZero hcal hseconds
  have hera : era ≤ 0 := by
    unfold secondsPerEra secondsToEpoch at *
    omega
  let i : InEra := ⟨era, dt, decide (-back = 0), true⟩
  have hstart : i.atStart = true → dt.date.year = 0 := by
    intro hat
    have hback : -back = 0 := of_decide_eq_true hat
    have hday : (0 : Int) < 366 * secondsPerDay := by decide
    omega
  have hrest : i.atStart = false → dt.date.year < 0 := by
    intro hat
    have hback : -back ≠ 0 := of_decide_eq_false hat
    omega
  have hten : -10000 ≤ dt.date.year := by omega
  have htext : i.splice.apply 0 (utcText i.dateTime) =
      utcText (i.dateTime.addCycles (i.era * 25)) :=
    splice_of_neg rfl hera hten hstart hrest
  refine ⟨i, dt.addCycles (era * 25), ?_, Shows.of_addCycles hcal hseconds hnano' hdiv htext⟩
  rw [hdt]
  rfl

theorem nano_mem_range {nano : Nat} (h : nano < 1000000000) :
    (nano : Int) ∈ Field.nanoOfSecond.range := by
  simp only [ValueRange.mem_def, Field.range, ValueRange.fixed]
  omega

/-- An instant is written as the date-time of its second, in whatever year it is. -/
theorem render_eq_utcText (seconds : Int) {nano : Nat} (hnano : nano < 1000000000) :
    ∃ dt : DateTime, dt.InCalendar ∧ dt.toEpochSeconds 0 = seconds ∧ dt.time.nano = nano ∧
      render seconds nano = .ok (utcText dt) := by
  have hshows : ∃ i dt, inEra seconds nano = .ok i ∧ Shows i seconds nano dt := by
    by_cases h : -secondsToEpoch ≤ seconds
    · exact inEra_of_nonneg h hnano
    · exact inEra_of_neg (by omega) hnano
  obtain ⟨i, dt, hi, hdt⟩ := hshows
  have hcheck : Field.nanoOfSecond.range.check .nanoOfSecond (nano : Int) = .ok (nano : Int) :=
    if_pos (nano_mem_range hnano)
  refine ⟨dt, hdt.inCalendar, hdt.toEpochSeconds, hdt.nano, ?_⟩
  rw [render, hcheck]
  dsimp only
  rw [Int.toNat_natCast, hi, ← hdt.text]
  rfl

end DateTimeText.Instant
