import DateTimeText.Proofs.Node.IsoParts
import DateTimeText.Proofs.Node.Rendering
import DateTimeText.Proofs.Node.SecondFraction

/-!
# Dates and times of day written in their ISO form

The text of the nodes of a date and of a time of day, for a value that has their fields.
-/

namespace DateTimeText

open Instant (yearText)

/-- Nanoseconds are written without the zeros at their end. -/
theorem Fraction.render_isoNano {nano : Nat} (hnano : nano < 1000000000) :
    ∃ fraction, isoNano.render .standard nano = .ok fraction ∧ Iso.IsFraction nano fraction := by
  have hlt : nano < tenPow 9 := hnano
  refine ⟨_, render_nano Symbols.standard_legible wellSized_isoNano rfl hlt, ?_⟩
  by_cases hzero : nano = 0
  · have hscale : isoNano.scale nano = 0 := if_pos hzero
    rw [if_pos hscale, hzero]
    exact .none
  · have hpos := scale_pos wellSized_isoNano hzero hlt
    have hle : isoNano.scale nano ≤ 9 := scale_le wellSized_isoNano nano
    have htrim : (trimZeros (zeroPadded 9 nano)).length ≤ isoNano.scale nano := by
      have h9 := length_trimZeros_le (zeroPadded 9 nano)
      rw [length_zeroPadded_of_lt (by decide) hlt] at h9
      rw [scale, if_neg hzero]
      exact Nat.le_min.2 ⟨Nat.le_max_left _ _, h9⟩
    have hdvd := tenPow_dvd_of_length_trimZeros_le hlt htrim hle
    generalize isoNano.scale nano = width at hpos hle hdvd
    obtain ⟨n, hn⟩ := hdvd
    have hquot : nano / tenPow (9 - width) = n := by
      rw [hn, Nat.mul_div_cancel_left _ (tenPow_pos _)]
    rw [if_neg (Nat.pos_iff_ne_zero.1 hpos), hquot, Symbols.map_digitChar_paddedDigits]
    refine .digits hzero hle hpos ?_ ?_
    · rw [hn, ← tenPow_nine_sub_mul hle] at hnano
      exact Nat.lt_of_mul_lt_mul_left hnano
    · rw [mul_div_tenPow hle, Nat.mul_comm, ← hn]

namespace Node

variable {expand : Node → Except FormatError (Option (List Char))} {st : Settings} {v : Components}

theorem renderWith_fixed (hst : st.symbols = .standard) {f : Field} {width n : Nat}
    (hf : v.field f = some (n : Int)) (hwidth : 0 < width) (hn : n < tenPow width) :
    renderWith expand st v (numeral (.plain f width width .notNegative)) =
      .ok (some (zeroPadded width n)) := by
  have hrender := Iso.render_fixed f hwidth hn
  rw [← hst] at hrender
  exact renderWith_numeral hf hrender

theorem renderWith_twoDigits (hst : st.symbols = .standard) {f : Field} {n : Nat}
    (hf : v.field f = some (n : Int)) (hn : n < 100) :
    renderWith expand st v (Iso.twoDigits f) = .ok (some (zeroPadded 2 n)) :=
  renderWith_fixed hst hf (by decide) hn

/-- The date of a value is written if its year has no more than ten digits. -/
theorem renderAllWith_localDate (hst : st.symbols = .standard) {d : Date} (hd : d.InCalendar)
    (hyear : (decimal d.year.natAbs).length ≤ 10)
    (hfields : ∀ f ∈ [Field.year, .monthOfYear, .dayOfMonth], v.field f = d.field f) :
    renderAllWith expand st v Iso.localDate = .ok (some (Iso.dateText d)) := by
  have hmonth : d.month < 100 := by have := hd.month_le; omega
  have hday : d.day < 100 := by have := hd.day_le_thirty_one; omega
  have hyearRender := Iso.render_yearNumeral hyear
  rw [← hst] at hyearRender
  refine renderAllWith_cons (renderWith_numeral (hfields .year (by simp)) hyearRender) ?_
  refine renderAllWith_cons (renderWith_literal ['-']) ?_
  refine renderAllWith_cons (renderWith_twoDigits hst (hfields .monthOfYear (by simp)) hmonth) ?_
  refine renderAllWith_cons (renderWith_literal ['-']) ?_
  exact renderAllWith_singleton
    (renderWith_twoDigits hst (hfields .dayOfMonth (by simp)) hday)

/-- The time of day of a value is written with its seconds, and with their fraction if there is one.
-/
theorem renderAllWith_localTime (hst : st.symbols = .standard) {t : Time} (ht : t.Valid)
    (hfields : ∀ f ∈ [Field.hourOfDay, .minuteOfHour, .secondOfMinute, .nanoOfSecond],
      v.field f = t.field f) :
    ∃ fraction, Iso.IsFraction t.nano fraction ∧
      renderAllWith expand st v Iso.localTime = .ok (some (Iso.clockText t fraction)) := by
  obtain ⟨hhour, hminute, hsecond, hnano⟩ := ht
  obtain ⟨fraction, hfraction, hshape⟩ := Fraction.render_isoNano hnano
  have hnanoField : v.field .nanoOfSecond = some (t.nano : Int) := hfields .nanoOfSecond (by simp)
  have hleaf : renderWith expand st v (leaf (.fraction .isoNano)) = .ok (some fraction) := by
    rw [renderWith, Leaf.render, Fraction.isoNano, hnanoField, Leaf.renderField, hst]
    rw [Fraction.isoNano] at hfraction
    rw [hfraction]
  have hseconds : renderWith expand st v Iso.seconds =
      .ok (some (':' :: (zeroPadded 2 t.second ++ fraction))) := by
    refine renderWith_group (renderAllWith_cons (renderWith_literal [':']) ?_) true
    refine renderAllWith_cons
      (renderWith_twoDigits hst (hfields .secondOfMinute (by simp)) (by omega)) ?_
    exact renderAllWith_singleton (renderWith_group (renderAllWith_singleton hleaf) true)
  refine ⟨fraction, hshape, ?_⟩
  refine renderAllWith_cons
    (renderWith_twoDigits hst (hfields .hourOfDay (by simp)) (by omega)) ?_
  refine renderAllWith_cons (renderWith_literal [':']) ?_
  refine renderAllWith_cons
    (renderWith_twoDigits hst (hfields .minuteOfHour (by simp)) (by omega)) ?_
  exact renderAllWith_singleton hseconds

theorem renderAllWith_localDateTime (hst : st.symbols = .standard) {d : DateTime}
    (hd : d.date.InCalendar) (hyear : (decimal d.date.year.natAbs).length ≤ 10)
    (ht : d.time.Valid)
    (hfields : ∀ f ∈ [Field.year, .monthOfYear, .dayOfMonth, .hourOfDay, .minuteOfHour,
      .secondOfMinute, .nanoOfSecond], v.field f = d.components.field f) :
    ∃ fraction, Iso.IsFraction d.time.nano fraction ∧
      renderAllWith expand st v Iso.localDateTime =
        .ok (some (Iso.dateText d.date ++ 'T' :: Iso.clockText d.time fraction)) := by
  simp only [List.forall_mem_cons] at hfields
  obtain ⟨hy, hmonth, hday, hhour, hminute, hsecond, hnano, -⟩ := hfields
  have hdate : renderAllWith expand st v Iso.localDate = .ok (some (Iso.dateText d.date)) := by
    apply renderAllWith_localDate hst hd hyear
    simp only [List.forall_mem_cons]
    exact ⟨hy, hmonth, hday, nofun⟩
  obtain ⟨fraction, hfraction, htime⟩ : ∃ fraction, Iso.IsFraction d.time.nano fraction ∧
      renderAllWith expand st v Iso.localTime =
        .ok (some (Iso.clockText d.time fraction)) := by
    apply renderAllWith_localTime hst ht
    simp only [List.forall_mem_cons]
    exact ⟨hhour, hminute, hsecond, hnano, nofun⟩
  refine ⟨fraction, hfraction, (renderAllWith_mode ..).trans ?_⟩
  refine renderAllWith_cons (renderWith_group hdate false) ?_
  refine renderAllWith_cons (renderWith_literal ['T']) ?_
  exact renderAllWith_singleton (renderWith_group htime false)

end Node

end DateTimeText
