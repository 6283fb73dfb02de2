import DateTimeText.Node.Iso
import DateTimeText.Proofs.Node.InstantText
import DateTimeText.Proofs.Node.LeafReading

/-!
# Dates and times of day read in their ISO form

The nodes of a date and of a time of day read back the text that the date-time of an instant is
written as. Years of more than ten digits are the exception: the ten digits that are read leave a
digit where the separator has to stand.
-/

namespace DateTimeText

open Instant (yearText fractionText)

namespace Components

/-- The components with the fields that the text of a date has. -/
def withDate (v : Components) (d : Date) : Components :=
  ((v.set .year d.year).set .monthOfYear d.month).set .dayOfMonth d.day

/-- The components with the fields that the text of a time of day has: a fraction of zero is not
written. -/
def withTime (v : Components) (t : Time) : Components :=
  let w := ((v.set .hourOfDay t.hour).set .minuteOfHour t.minute).set .secondOfMinute t.second
  if t.nano = 0 then w else w.set .nanoOfSecond t.nano

end Components

namespace Iso

def yearNumeral : Numeral := .plain .year 4 10 .exceedsPad

def dateText (d : Date) : List Char :=
  yearText d.year ++ '-' :: (zeroPadded 2 d.month ++ '-' :: zeroPadded 2 d.day)

def timeText (t : Time) : List Char :=
  zeroPadded 2 t.hour ++ ':' :: (zeroPadded 2 t.minute ++
    ':' :: (zeroPadded 2 t.second ++ fractionText t.nano))

/-- The text of a time of day with a text of its fraction of a second. -/
def clockText (t : Time) (fraction : List Char) : List Char :=
  zeroPadded 2 t.hour ++ ':' :: (zeroPadded 2 t.minute ++
    ':' :: (zeroPadded 2 t.second ++ fraction))

theorem timeText_eq (t : Time) : timeText t = clockText t (fractionText t.nano) := rfl

/-- A text of nanoseconds: nothing for none, else a point and digits of the fraction that they are
of a second. -/
inductive IsFraction : Nat → List Char → Prop
  | none : IsFraction 0 []
  | digits {width n nano : Nat} (hzero : nano ≠ 0) (hwidth : width ≤ 9) (hpos : 0 < width)
      (hn : n < tenPow width) (hvalue : n * 1000000000 / tenPow width = nano) :
      IsFraction nano ('.' :: zeroPadded width n)

theorem isFraction_fractionText {nano : Nat} (hnano : nano < 1000000000) :
    IsFraction nano (fractionText nano) := by
  by_cases hzero : nano = 0
  · rw [hzero]
    exact .none
  · obtain ⟨width, n, htext, hwidth, hpos, hn, hvalue⟩ := Instant.fractionText_eq hzero hnano
    rw [htext]
    exact .digits hzero hwidth hpos hn hvalue

theorem utcText_eq (dt : DateTime) :
    Instant.utcText dt = dateText dt.date ++ 'T' :: (timeText dt.time ++ ['Z']) := by
  simp [Instant.utcText, Instant.restText, dateText, timeText]

theorem render_yearNumeral {year : Int} (h : (decimal year.natAbs).length ≤ 10) :
    yearNumeral.render .standard year = .ok (yearText year) := by
  have hbody : List.replicate (4 - (decimal year.natAbs).length) Symbols.standard.zero ++
      Symbols.standard.localize (decimal year.natAbs) = zeroPadded 4 year.natAbs := by
    rw [Symbols.localize_standard_decimal]
    rfl
  have hfits : ¬ 10 < (decimal year.natAbs).length := Nat.not_lt.2 h
  rw [Instant.yearText_eq, Instant.yearSign]
  simp only [yearNumeral, Numeral.plain, Numeral.render, Numeral.shown, hbody, hfits, if_false]
  by_cases hneg : year < 0
  · simp only [hneg, if_true]
    rfl
  · have hpow : (4 < maxDigits ∧ (tenPow 4 : Int) ≤ year) ↔ 9999 < year := by
      simp only [maxDigits, tenPow]
      omega
    simp only [hneg, hpow, if_false]
    split
    · rfl
    · rfl

theorem render_fixed (f : Field) {width n : Nat} (hwidth : 0 < width) (hn : n < tenPow width) :
    (Numeral.plain f width width .notNegative).render .standard n = .ok (zeroPadded width n) := by
  have hshown : (Numeral.plain f width width .notNegative).shown n = n := rfl
  have hneg : ¬ (n : Int) < 0 := by omega
  rw [Numeral.render_fixed Symbols.standard_legible hwidth rfl rfl rfl, hshown, Int.natAbs_natCast,
    if_neg (Nat.not_le.2 hn), if_neg hneg, Symbols.map_digitChar_paddedDigits]

end Iso

namespace Node

variable {expand : Node → Context → List Char → Parsed} {st : Settings} {c : Context}

theorem parseWith_char (a : Char) (c : Context) (rest : List Char) :
    parseWith expand st (literal [a]) c (a :: rest) = (c, .ok rest) :=
  parseWith_literal c [a] rest

theorem parseWith_fixed (hst : st.symbols = .standard) (hstrict : c.mode.strict = true)
    {f : Field} (hf : c.current.field f = none) {width n : Nat} (hwidth : 0 < width)
    (hmax : width ≤ 18) (hn : n < tenPow width) (rest : List Char) :
    parseWith expand st (numeral (.plain f width width .notNegative)) c
        (zeroPadded width n ++ rest) = ({ c with current := c.current.set f n }, .ok rest) := by
  have hlegible : st.symbols.Legible := hst ▸ Symbols.standard_legible
  have hsized : (Numeral.plain f width width .notNegative).WellSized :=
    ⟨hwidth, Nat.le_refl width, hmax.trans (by decide)⟩
  have hfits : FitsInt64 n := by
    have hpow := tenPow_le_tenPow hmax
    simp only [tenPow] at hpow
    unfold FitsInt64 int64Min int64Max
    omega
  have hrecovers : (Numeral.plain f width width .notNegative).Recovers n := .plain hfits (by decide)
  have hrender : (Numeral.plain f width width .notNegative).render st.symbols n =
      .ok (zeroPadded width n) := by
    rw [hst, Iso.render_fixed f hwidth hn]
  have hold : ∀ old ∈ c.current.field f, old = (n : Int) := by simp [hf]
  exact parseWith_numeral hlegible hsized hrecovers hrender (.inl ⟨rfl, rfl⟩) hstrict hold

theorem parseWith_twoDigits (hst : st.symbols = .standard) (hstrict : c.mode.strict = true)
    {f : Field} (hf : c.current.field f = none) {n : Nat} (hn : n < 100) (rest : List Char) :
    parseWith expand st (Iso.twoDigits f) c (zeroPadded 2 n ++ rest) =
      ({ c with current := c.current.set f n }, .ok rest) :=
  parseWith_fixed hst hstrict hf (by decide) (by decide) hn rest

/-- A year is read in front of a text that does not go on with a digit, and one of ten digits in
front of any text. -/
theorem parseWith_year (hst : st.symbols = .standard) (hstrict : c.mode.strict = true)
    (hf : c.current.field .year = none) {year : Int} (hyear : (decimal year.natAbs).length ≤ 10)
    {rest : List Char}
    (hrest : (decimal year.natAbs).length = 10 ∨ Symbols.standard.EndsDigits rest) :
    parseWith expand st (numeral Iso.yearNumeral) c (yearText year ++ rest) =
      ({ c with current := c.current.set .year year }, .ok rest) := by
  have hsized : Iso.yearNumeral.WellSized := ⟨by decide, by decide, by decide⟩
  have hlt : year.natAbs < tenPow 10 := (length_decimal_le_iff (by decide)).1 hyear
  have hfits : FitsInt64 year := by
    simp only [tenPow] at hlt
    unfold FitsInt64 int64Min int64Max
    omega
  have hrecovers : Iso.yearNumeral.Recovers year := .plain hfits (by decide)
  have hlen : (Iso.yearNumeral.writtenDigits year).length = max 4 (decimal year.natAbs).length :=
    Numeral.length_writtenDigits _ year
  have hleaves : (Symbols.standard.digitRun
      (10 + 0 - (Iso.yearNumeral.writtenDigits year).length) rest).length = 0 := by
    rcases hrest with hten | hends
    · rw [hlen, hten]
      rfl
    · rw [Symbols.digitRun_of_endsDigits hends]
      rfl
  obtain ⟨body, hread⟩ := Numeral.read_render_append_of_length Symbols.standard_legible hsized
    hrecovers (Iso.render_yearNumeral hyear) hleaves
  have hold : ∀ old ∈ c.current.field .year, old = year := by simp [hf]
  rw [← hst] at hread
  exact parseWith_numeral_of_read hstrict hread hold

/-- A date is read whatever follows it. -/
theorem parseAllWith_localDate (hst : st.symbols = .standard) (hstrict : c.mode.strict = true)
    (hnew : ∀ f ∈ [Field.year, .monthOfYear, .dayOfMonth], c.current.field f = none) {d : Date}
    (hd : d.InCalendar) (hyear : (decimal d.year.natAbs).length ≤ 10) (nodes : List Node)
    (rest : List Char) :
    parseAllWith expand st (Iso.localDate ++ nodes) c (Iso.dateText d ++ rest) =
      parseAllWith expand st nodes { c with current := c.current.withDate d } rest := by
  have hmonth : d.month < 100 := by have := hd.month_le; omega
  have hday : d.day < 100 := by have := hd.day_le_thirty_one; omega
  have hends : Symbols.standard.EndsDigits ('-' :: (zeroPadded 2 d.month ++
      '-' :: (zeroPadded 2 d.day ++ rest))) := by
    rintro a ⟨⟩
    decide
  have htext : Iso.dateText d ++ rest = yearText d.year ++ '-' :: (zeroPadded 2 d.month ++
      '-' :: (zeroPadded 2 d.day ++ rest)) := by
    simp [Iso.dateText]
  rw [htext]
  refine (parseAllWith_cons_ok (parseWith_year hst hstrict (hnew _ (by simp)) hyear
    (.inr hends))).trans ?_
  refine (parseAllWith_cons_ok (parseWith_char '-' _ _)).trans ?_
  refine (parseAllWith_cons_ok (parseWith_twoDigits hst (by exact hstrict) ?_ hmonth _)).trans ?_
  · simpa using hnew .monthOfYear (by simp)
  refine (parseAllWith_cons_ok (parseWith_char '-' _ _)).trans ?_
  refine (parseAllWith_cons_ok (parseWith_twoDigits hst (by exact hstrict) ?_ hday _)).trans ?_
  · simpa using hnew .dayOfMonth (by simp)
  rfl

theorem parseWith_fraction (hst : st.symbols = .standard) (hstrict : c.mode.strict = true)
    (hnew : c.current.field .nanoOfSecond = none) {nano : Nat} {fraction : List Char}
    (hfraction : Iso.IsFraction nano fraction) {rest : List Char}
    (hdigits : Symbols.standard.EndsDigits rest) (hpoint : ∀ a ∈ rest.head?, a ≠ '.') :
    parseWith expand st (leaf (.fraction .isoNano)) c (fraction ++ rest) =
      ({ c with current := if nano = 0 then c.current else c.current.set .nanoOfSecond nano },
        .ok rest) := by
  rw [parseWith, Leaf.read, hst, hstrict]
  cases hfraction with
  | none =>
      rw [List.nil_append, Fraction.isoNano_read_of_ne hpoint, if_pos rfl]
      rfl
  | digits hzero hwidth hpos hn hvalue =>
      obtain ⟨body, hread⟩ := Fraction.isoNano_read_append hwidth hpos hn hdigits
      rw [hread, hvalue, if_neg hzero]
      exact Context.storeResult_value (by simp [hnew]) body rest

theorem parseWith_seconds (hst : st.symbols = .standard) (hstrict : c.mode.strict = true)
    (hnew : ∀ f ∈ [Field.secondOfMinute, .nanoOfSecond], c.current.field f = none) {second : Nat}
    (hsecond : second < 60) {nano : Nat} {fraction : List Char}
    (hfraction : Iso.IsFraction nano fraction) {rest : List Char}
    (hdigits : Symbols.standard.EndsDigits rest) (hpoint : ∀ a ∈ rest.head?, a ≠ '.') :
    parseWith expand st Iso.seconds c
        (':' :: (zeroPadded 2 second ++ (fraction ++ rest))) =
      ({ c with current :=
          let v := c.current.set .secondOfMinute second
          if nano = 0 then v else v.set .nanoOfSecond nano }, .ok rest) := by
  apply parseWith_section_ok
  refine (parseAllWith_cons_ok (parseWith_char ':' _ _)).trans ?_
  refine (parseAllWith_cons_ok (parseWith_twoDigits hst (by exact hstrict) ?_
    (by omega) _)).trans ?_
  · exact hnew .secondOfMinute (by simp)
  have hsection : parseWith expand st Iso.secondFraction
      { c.startOptional with current := c.current.set .secondOfMinute second }
      (fraction ++ rest) =
        ({ c.startOptional with current :=
            if nano = 0 then c.current.set .secondOfMinute second
            else (c.current.set .secondOfMinute second).set .nanoOfSecond nano }, .ok rest) := by
    apply parseWith_section_ok
    refine (parseAllWith_cons_ok (parseWith_fraction hst (by exact hstrict) ?_ hfraction hdigits
      hpoint)).trans ?_
    · change (c.current.set .secondOfMinute second).field .nanoOfSecond = none
      simpa using hnew .nanoOfSecond (by simp)
    rfl
  exact (parseAllWith_cons_ok hsection).trans rfl

/-- A time of day is read in front of a text that does not go on with a fraction of a second. -/
theorem parseAllWith_localTime (hst : st.symbols = .standard) (hstrict : c.mode.strict = true)
    (hnew : ∀ f ∈ [Field.hourOfDay, .minuteOfHour, .secondOfMinute, .nanoOfSecond],
      c.current.field f = none) {t : Time} (ht : t.Valid) {fraction : List Char}
    (hfraction : Iso.IsFraction t.nano fraction) (nodes : List Node) {rest : List Char}
    (hdigits : Symbols.standard.EndsDigits rest) (hpoint : ∀ a ∈ rest.head?, a ≠ '.') :
    parseAllWith expand st (Iso.localTime ++ nodes) c (Iso.clockText t fraction ++ rest) =
      parseAllWith expand st nodes { c with current := c.current.withTime t } rest := by
  obtain ⟨hhour, hminute, hsecond, -⟩ := ht
  have htext : Iso.clockText t fraction ++ rest = zeroPadded 2 t.hour ++
      ':' :: (zeroPadded 2 t.minute ++ ':' :: (zeroPadded 2 t.second ++ (fraction ++ rest))) := by
    simp [Iso.clockText]
  rw [htext]
  refine (parseAllWith_cons_ok (parseWith_twoDigits hst (by exact hstrict) ?_
    (by omega) _)).trans ?_
  · exact hnew .hourOfDay (by simp)
  refine (parseAllWith_cons_ok (parseWith_char ':' _ _)).trans ?_
  refine (parseAllWith_cons_ok (parseWith_twoDigits hst (by exact hstrict) ?_
    (by omega) _)).trans ?_
  · simpa using hnew .minuteOfHour (by simp)
  refine (parseAllWith_cons_ok (parseWith_seconds hst (by exact hstrict) ?_ hsecond hfraction hdigits
    hpoint)).trans ?_
  · intro f hf
    simp only [List.mem_cons, List.not_mem_nil, or_false] at hf
    rcases hf with rfl | rfl
    · simpa using hnew .secondOfMinute (by simp)
    · simpa using hnew .nanoOfSecond (by simp)
  rfl

theorem parseWith_group_ok {nodes : List Node} {after : Context} {text rest : List Char}
    (h : parseAllWith expand st (nodes ++ []) c text = parseAllWith expand st [] after rest) :
    parseWith expand st (group nodes false) c text = (after, .ok rest) := by
  rw [List.append_nil, parseAllWith] at h
  rw [parseWith, h]

/-- The date and time of day of a value are read into components that have no fields yet. -/
theorem parseWith_localDateTime (hst : st.symbols = .standard) (hstrict : c.mode.strict = true)
    (hnew : c.current = .empty) {d : Date} (hd : d.InCalendar)
    (hyear : (decimal d.year.natAbs).length ≤ 10) {t : Time} (ht : t.Valid) {fraction : List Char}
    (hfraction : Iso.IsFraction t.nano fraction) {rest : List Char}
    (hdigits : Symbols.standard.EndsDigits rest) (hpoint : ∀ a ∈ rest.head?, a ≠ '.') :
    parseWith expand st (group Iso.localDateTime false) c
        (Iso.dateText d ++ 'T' :: (Iso.clockText t fraction ++ rest)) =
      ({ c with
          mode := ModeChange.caseInsensitive.apply c.mode
          current := (Components.empty.withDate d).withTime t }, .ok rest) := by
  have hdate : ∀ f ∈ [Field.year, .monthOfYear, .dayOfMonth], c.current.field f = none := by
    rw [hnew]
    exact fun _ _ => rfl
  have htime : ∀ f ∈ [Field.hourOfDay, .minuteOfHour, .secondOfMinute, .nanoOfSecond],
      (c.current.withDate d).field f = none := by
    rw [hnew]
    simp [Components.withDate, Components.empty]
  rw [parseWith, Iso.localDateTime]
  refine (parseAllWith_cons_ok (parseWith_mode ..)).trans ?_
  refine (parseAllWith_cons_ok (parseWith_group_ok
    (parseAllWith_localDate hst (by exact hstrict) (by exact hdate) hd hyear [] _))).trans ?_
  refine (parseAllWith_cons_ok (parseWith_char 'T' _ _)).trans ?_
  refine (parseAllWith_singleton ..).trans ((parseWith_group_ok
    (parseAllWith_localTime hst (by exact hstrict) (by exact htime) ht hfraction [] hdigits
      hpoint)).trans ?_)
  rw [hnew]

theorem parseWith_instantParts (hst : st.symbols = .standard) {dt : DateTime} (hdt : dt.InCalendar)
    (hyear : (decimal dt.date.year.natAbs).length ≤ 10) (rest : List Char) :
    ∃ after, parseWith expand st Iso.instantParts .initial (Instant.utcText dt ++ rest) =
        (after, .ok rest) ∧
      after.current = (Components.empty.withDate dt.date).withTime dt.time := by
  have htext : Instant.utcText dt ++ rest =
      Iso.dateText dt.date ++ 'T' :: (Iso.timeText dt.time ++ 'Z' :: rest) := by
    simp [Iso.utcText_eq]
  have hnodes : [mode .caseInsensitive] ++ Iso.localDate ++ [literal ['T']] ++ Iso.localTime ++
      [literal ['Z']] = mode .caseInsensitive ::
        (Iso.localDate ++ literal ['T'] :: (Iso.localTime ++ [literal ['Z']])) := by
    simp
  have hdigits : Symbols.standard.EndsDigits ('Z' :: rest) := by
    rintro a ⟨⟩
    decide
  have hpoint : ∀ a ∈ ('Z' :: rest).head?, a ≠ '.' := by
    rintro a ⟨⟩
    decide
  let c : Context := ⟨⟨false, true⟩, .empty, []⟩
  refine ⟨{ c with current := (Components.empty.withDate dt.date).withTime dt.time }, ?_, rfl⟩
  rw [htext, Iso.instantParts, parseWith, hnodes]
  refine (parseAllWith_cons_ok (parseWith_mode ..)).trans ?_
  refine (parseAllWith_localDate hst rfl (fun _ _ => rfl) hdt.date hyear _ _).trans ?_
  refine (parseAllWith_cons_ok (parseWith_char 'T' _ _)).trans ?_
  rw [Iso.timeText_eq]
  refine (parseAllWith_localTime hst rfl ?_ hdt.time (Iso.isFraction_fractionText hdt.time.2.2.2) _
    hdigits hpoint).trans ?_
  · intro f hf
    simp only [List.mem_cons, List.not_mem_nil, or_false] at hf
    rcases hf with rfl | rfl | rfl | rfl <;> rfl
  exact (parseAllWith_singleton ..).trans (parseWith_char 'Z' _ _)

/-- A minus sign is not read in front of a digit. -/
theorem parseWith_separator_of_digit (c : Context) {width : Nat} (hwidth : 0 < width) (n : Nat)
    (rest : List Char) :
    parseWith expand st (literal ['-']) c (zeroPadded width n ++ rest) =
      (c, .error (zeroPadded width n ++ rest)) := by
  have hlen := length_zeroPadded width n
  obtain ⟨d, more, htext⟩ : ∃ d more, zeroPadded width n = d :: more := by
    apply List.exists_cons_of_ne_nil
    intro hnil
    rw [hnil, List.length_nil] at hlen
    omega
  have hdigit : ∃ k < 10, d = Symbols.standard.digitChar k := by
    have hmem : d ∈ (paddedDigits width n).map Symbols.standard.digitChar := by
      rw [Symbols.map_digitChar_paddedDigits, htext]
      exact List.mem_cons_self
    obtain ⟨k, hk, rfl⟩ := List.mem_map.1 hmem
    exact ⟨k, lt_ten_of_mem_paddedDigits hk, rfl⟩
  have hother : c.mode.sameChar '-' d = false := by
    obtain ⟨k, hk, rfl⟩ := hdigit
    have hletters : ∀ k < 10, sameLetter '-' (Symbols.standard.digitChar k) = false := by
      decide +kernel
    have hchars : ∀ k < 10, ('-' == Symbols.standard.digitChar k) = false := by decide
    unfold Mode.sameChar
    split
    · exact hchars k hk
    · exact hletters k hk
  rw [htext, literal, parseWith, Leaf.read, Leaf.readLiteral]
  simp [Mode.strip?, hother, Context.storeResult]

/-- A year of more than ten digits is not read: what follows its ten digits is no separator. -/
theorem parseWith_instantParts_of_long (hst : st.symbols = .standard) {dt : DateTime}
    (hyear : 10 < (decimal dt.date.year.natAbs).length) (rest : List Char) :
    ∃ after stop, parseWith expand st Iso.instantParts .initial (Instant.utcText dt ++ rest) =
        (after, .error stop) ∧
      (Instant.utcText dt ++ rest).length = 11 + stop.length := by
  obtain ⟨short, width, n, hsplit, hten, heleven, hwidth⟩ := Instant.yearText_of_long hyear
  let c : Context := ⟨⟨false, true⟩, .empty, []⟩
  let stop := zeroPadded width n ++ (Instant.restText dt ++ rest)
  have htext : Instant.utcText dt ++ rest = yearText short ++ stop := by
    simp [Instant.utcText, hsplit, stop]
  refine ⟨{ c with current := c.current.set .year short }, stop, ?_, ?_⟩
  · rw [htext, Iso.instantParts, parseWith]
    refine (parseAllWith_cons_ok (parseWith_mode ..)).trans ?_
    refine (parseAllWith_cons_ok (parseWith_year hst rfl rfl (Nat.le_of_eq hten)
      (.inl hten))).trans ?_
    exact parseAllWith_cons_error (parseWith_separator_of_digit _ hwidth n _)
  · rw [htext, List.length_append, heleven]

end Node

namespace Instant

theorem field_withTime (v : Components) (t : Time) (f : Field) (hf : f ≠ .nanoOfSecond) :
    (v.withTime t).field f = (((v.set .hourOfDay t.hour).set .minuteOfHour t.minute).set
      .secondOfMinute t.second).field f := by
  unfold Components.withTime
  dsimp only
  split
  · rfl
  · rw [Components.field_set, if_neg hf]

theorem nanoOfSecond_withTime {v : Components} (hv : v.field .nanoOfSecond = none) (t : Time) :
    ((v.withTime t).field .nanoOfSecond).getD 0 = t.nano := by
  unfold Components.withTime
  dsimp only
  split
  · rename_i hzero
    simp [hv, hzero]
  · rfl

/-- The fields of a date-time. A second and a nanosecond of zero may be left out. -/
structure HasParts (v : Components) (dt : DateTime) : Prop where
  year : v.field .year = some dt.date.year
  month : v.field .monthOfYear = some ↑dt.date.month
  day : v.field .dayOfMonth = some ↑dt.date.day
  hour : v.field .hourOfDay = some ↑dt.time.hour
  minute : v.field .minuteOfHour = some ↑dt.time.minute
  second : (v.field .secondOfMinute).getD 0 = dt.time.second
  nano : (v.field .nanoOfSecond).getD 0 = dt.time.nano

theorem hasParts_withTime (dt : DateTime) :
    HasParts ((Components.empty.withDate dt.date).withTime dt.time) dt where
  year := field_withTime _ _ _ nofun
  month := field_withTime _ _ _ nofun
  day := field_withTime _ _ _ nofun
  hour := field_withTime _ _ _ nofun
  minute := field_withTime _ _ _ nofun
  second := by
    rw [field_withTime _ _ .secondOfMinute nofun]
    rfl
  nano := nanoOfSecond_withTime rfl dt.time

/-- The same month and day in the era around year 0. -/
def inFirstEra (d : Date) : Date :=
  { d with year := d.year.tmod 10000 }

theorem inFirstEra_addCycles (d : Date) :
    (inFirstEra d).addCycles (d.year.tdiv 10000 * 25) = d := by
  have hdiv := Int.mul_tdiv_add_tmod d.year 10000
  have hyear : d.year.tmod 10000 + d.year.tdiv 10000 * 25 * 400 = d.year := by omega
  exact congrArg (Date.mk · d.month d.day) hyear

/-- An era is twenty-five cycles of the calendar, so that its months have the same days. -/
theorem valid_inFirstEra_iff (d : Date) : (inFirstEra d).Valid ↔ d.InCalendar := by
  have hlow := Int.lt_tmod_of_pos d.year (show (0 : Int) < 10000 by decide)
  have hhigh := Int.tmod_lt_of_pos d.year (show (0 : Int) < 10000 by decide)
  have hyear : (inFirstEra d).year ∈ Field.year.range := by
    simp only [inFirstEra, ValueRange.mem_def, Field.range, ValueRange.fixed]
    omega
  have hmonth : daysInMonth (inFirstEra d).year d.month = daysInMonth d.year d.month := by
    rw [← Date.daysInMonth_add_cycles _ (d.year.tdiv 10000 * 25)]
    exact congrArg (fun e : Date => daysInMonth e.year d.month) (inFirstEra_addCycles d)
  rw [Date.valid_iff, and_iff_right hyear]
  constructor
  · rintro ⟨h1, h12, hfirst, hlast⟩
    exact ⟨h1, h12, hfirst, hmonth ▸ hlast⟩
  · rintro ⟨h1, h12, hfirst, hlast⟩
    exact ⟨h1, h12, hfirst, hmonth.symm ▸ hlast⟩

theorem toEpochSeconds_inFirstEra {dt : DateTime} (h : (inFirstEra dt.date).InCalendar)
    (htime : dt.time.Valid) (nano : Nat) :
    dt.date.year.tdiv 10000 * secondsPerEra +
        (DateTime.mk (inFirstEra dt.date) { dt.time with nano := nano }).toEpochSeconds 0 =
      dt.toEpochSeconds 0 := by
  have hbase : (DateTime.mk (inFirstEra dt.date) dt.time).InCalendar := ⟨h, htime⟩
  have hshift := hbase.toEpochSeconds_addCycles (dt.date.year.tdiv 10000 * 25) 0
  have hdt : (DateTime.mk (inFirstEra dt.date) dt.time).addCycles
      (dt.date.year.tdiv 10000 * 25) = dt :=
    congrArg (DateTime.mk · dt.time) (inFirstEra_addCycles dt.date)
  rw [hdt, Int.mul_assoc, ← secondsPerEra_eq, Int.add_comm] at hshift
  exact hshift.symm

/-- An instant is found from the fields of a date-time that exists, and of no other: the year is
split by eras, and the calendar of the year within its era is the same. -/
theorem HasParts.ofComponents?_eq {v : Components} {dt : DateTime} (h : HasParts v dt)
    (hnano : dt.time.nano < 1000000000) :
    ofComponents? v =
      if dt.InCalendar then some (dt.toEpochSeconds 0, (dt.time.nano : Int)) else none := by
  rw [ofComponents?, h.year, h.month, h.day, h.hour, h.minute]
  simp only [h.second, h.nano, Option.bind_eq_bind, Option.bind_some, Int.toNat_natCast, pure]
  by_cases hdate : (inFirstEra dt.date).Valid
  · have hof : Date.of (dt.date.year.tmod 10000) dt.date.month dt.date.day =
        .ok (inFirstEra dt.date) := Date.of_eq_ok_iff.2 ⟨rfl, hdate⟩
    rw [hof]
    by_cases htime : dt.time.Valid
    · have hclock : Time.of dt.time.hour dt.time.minute dt.time.second 0 =
          .ok { dt.time with nano := 0 } :=
        if_pos ⟨htime.1, htime.2.1, htime.2.2.1, Nat.zero_lt_succ _⟩
      rw [hclock, if_pos ⟨(valid_inFirstEra_iff _).1 hdate, htime⟩,
        ← toEpochSeconds_inFirstEra (Date.valid_iff.1 hdate).2 htime 0]
      rfl
    · have hclock : ∃ e, Time.of dt.time.hour dt.time.minute dt.time.second 0 = .error e :=
        ⟨_, if_neg fun hvalid => htime ⟨hvalid.1, hvalid.2.1, hvalid.2.2.1, hnano⟩⟩
      obtain ⟨e, hclock⟩ := hclock
      rw [hclock, if_neg fun hdt => htime hdt.time]
      rfl
  · have hof : ∃ e, Date.of (dt.date.year.tmod 10000) dt.date.month dt.date.day = .error e := by
      cases hof : Date.of (dt.date.year.tmod 10000) dt.date.month dt.date.day with
      | error e => exact ⟨e, rfl⟩
      | ok d =>
          obtain ⟨rfl, hvalid⟩ := Date.of_eq_ok_iff.1 hof
          exact absurd hvalid hdate
    obtain ⟨e, hof⟩ := hof
    rw [hof, if_neg fun hdt => hdate ((valid_inFirstEra_iff _).2 hdt.date)]
    rfl

/-- The instant is found again from the fields of its date-time. -/
theorem ofComponents?_eq {dt : DateTime} (hdt : dt.InCalendar) :
    ofComponents? ((Components.empty.withDate dt.date).withTime dt.time) =
      some (dt.toEpochSeconds 0, (dt.time.nano : Int)) := by
  rw [(hasParts_withTime dt).ofComponents?_eq hdt.time.2.2.2, if_pos hdt]

end Instant

end DateTimeText
