import DateTimeText.Date
import Mathlib.Tactic.IntervalCases

/-!
# Dates in the order of their days

The days from 1970-01-01 on, and before it, are the dates in the order of the calendar: each day in
range has one date, and a later day has a later date. The days before a date are counted in years
from a January on, and the date of a day is found in years from a March on, of which the leap day is
the last.
-/

namespace DateTimeText

def daysInYear (year : Int) : Nat :=
  if isLeapYear year then 366 else 365

/-- The days from the start of year 0 to the start of a year. -/
def daysBeforeYear (year : Int) : Int :=
  daysBeforeMarchYear (year - 1) + 366

theorem daysInYear_eq (year : Int) :
    (daysInYear year : Int) =
      if year % 4 = 0 ∧ (year % 100 ≠ 0 ∨ year % 400 = 0) then 366 else 365 := by
  unfold daysInYear isLeapYear
  simp

theorem daysInYear_pos (year : Int) : 365 ≤ daysInYear year ∧ daysInYear year ≤ 366 := by
  unfold daysInYear
  split <;> omega

theorem daysBeforeMarchYear_add_one (year : Int) :
    daysBeforeMarchYear (year + 1) = daysBeforeMarchYear year + daysInYear (year + 1) := by
  rw [daysInYear_eq]
  unfold daysBeforeMarchYear
  split <;> omega

theorem daysBeforeMarchYear_le {a b : Int} (h : a ≤ b) :
    daysBeforeMarchYear a ≤ daysBeforeMarchYear b := by
  unfold daysBeforeMarchYear
  omega

theorem daysBeforeMarchYear_add_cycles (year cycles : Int) :
    daysBeforeMarchYear (year + cycles * 400) =
      daysBeforeMarchYear year + cycles * daysPerCycle := by
  unfold daysBeforeMarchYear daysPerCycle
  omega

theorem isLeapYear_add_cycles (year cycles : Int) :
    isLeapYear (year + cycles * 400) = isLeapYear year := by
  have h4 : (year + cycles * 400) % 4 = year % 4 := by omega
  have h100 : (year + cycles * 400) % 100 = year % 100 := by omega
  have h400 : (year + cycles * 400) % 400 = year % 400 := by omega
  simp only [isLeapYear, h4, h100, h400]

theorem daysBeforeYear_add_one (year : Int) :
    daysBeforeYear (year + 1) = daysBeforeYear year + daysInYear year := by
  have h := daysBeforeMarchYear_add_one (year - 1)
  rw [Int.sub_add_cancel] at h
  rw [daysBeforeYear, daysBeforeYear, Int.add_sub_cancel, h]
  omega

theorem daysBeforeYear_le {a b : Int} (h : a ≤ b) : daysBeforeYear a ≤ daysBeforeYear b := by
  have hle : daysBeforeMarchYear (a - 1) ≤ daysBeforeMarchYear (b - 1) :=
    daysBeforeMarchYear_le (by omega)
  unfold daysBeforeYear
  omega

theorem daysBeforeYear_eq (year : Int) :
    daysBeforeYear year = 365 * year + Date.leapDaysBefore year := by
  unfold Date.leapDaysBefore daysBeforeYear daysBeforeMarchYear
  split <;> omega

theorem daysBeforeMonth_add_one {year : Int} {month : Nat} (h : 1 ≤ month) :
    daysBeforeMonth year (month + 1) = daysBeforeMonth year month + daysInMonth year month := by
  obtain ⟨m, rfl⟩ := Nat.exists_eq_add_of_le h
  rw [Nat.add_comm 1 m, daysBeforeMonth]

theorem daysBeforeMonth_le {year : Int} {a b : Nat} (ha : 1 ≤ a) (h : a ≤ b) :
    daysBeforeMonth year a ≤ daysBeforeMonth year b := by
  induction b, h using Nat.le_induction with
  | base => exact Nat.le_refl _
  | succ b hab ih =>
      rw [daysBeforeMonth_add_one (by omega)]
      omega

theorem daysBeforeMonth_thirteen (year : Int) : daysBeforeMonth year 13 = daysInYear year := by
  unfold daysInYear
  cases h : isLeapYear year <;> simp [daysBeforeMonth, daysInMonth, h]

theorem daysBeforeMonth_eq (year : Int) {month : Nat} (h1 : 1 ≤ month) (h12 : month ≤ 12) :
    (daysBeforeMonth year month : Int) = (367 * month - 362) / 12 -
      if month ≤ 2 then 0 else if isLeapYear year then 1 else 2 := by
  cases hleap : isLeapYear year <;> interval_cases month <;>
    simp [daysBeforeMonth, daysInMonth, hleap]

namespace Date

/-- Whether the month has the day, in any year. -/
structure InCalendar (d : Date) : Prop where
  one_le_month : 1 ≤ d.month
  month_le : d.month ≤ 12
  one_le_day : 1 ≤ d.day
  day_le : d.day ≤ daysInMonth d.year d.month

instance (d : Date) : Decidable d.InCalendar :=
  decidable_of_iff
    (1 ≤ d.month ∧ d.month ≤ 12 ∧ 1 ≤ d.day ∧ d.day ≤ daysInMonth d.year d.month)
    ⟨fun ⟨h1, h12, hfirst, hlast⟩ => ⟨h1, h12, hfirst, hlast⟩,
      fun ⟨h1, h12, hfirst, hlast⟩ => ⟨h1, h12, hfirst, hlast⟩⟩

theorem daysInMonth_le (year : Int) (month : Nat) : daysInMonth year month ≤ 31 := by
  rw [daysInMonth]
  split
  · split <;> omega
  · split <;> omega

theorem InCalendar.day_le_thirty_one {d : Date} (h : d.InCalendar) : d.day ≤ 31 :=
  h.day_le.trans (daysInMonth_le d.year d.month)

theorem valid_iff {d : Date} : d.Valid ↔ d.year ∈ Field.year.range ∧ d.InCalendar :=
  ⟨fun ⟨hy, h1, h12, hd, hm⟩ => ⟨hy, h1, h12, hd, hm⟩,
    fun ⟨hy, h1, h12, hd, hm⟩ => ⟨hy, h1, h12, hd, hm⟩⟩

theorem of_eq_ok_iff {year : Int} {month day : Nat} {d : Date} :
    Date.of year month day = .ok d ↔ d = ⟨year, month, day⟩ ∧ d.Valid := by
  unfold Date.of
  constructor
  · intro h
    by_cases hyear : year ∉ Field.year.range
    · rw [if_pos hyear] at h
      cases h
    by_cases hdate : month < 1 ∨ 12 < month ∨ day = 0 ∨ daysInMonth year month < day
    · rw [if_neg hyear, if_pos hdate] at h
      cases h
    rw [if_neg hyear, if_neg hdate] at h
    cases h
    refine ⟨rfl, Decidable.not_not.1 hyear, ?_⟩
    dsimp only
    omega
  · rintro ⟨rfl, hyear, h1, h12, hd, hm⟩
    dsimp only at h1 h12 hd hm
    rw [if_neg (not_not_intro hyear), if_neg (by omega)]

variable {d e : Date}

theorem InCalendar.dayOfYear_le (h : d.InCalendar) :
    d.dayOfYear ≤ daysBeforeMonth d.year (d.month + 1) := by
  have hday := h.day_le
  rw [daysBeforeMonth_add_one h.one_le_month, dayOfYear]
  omega

theorem InCalendar.one_le_dayOfYear (h : d.InCalendar) : 1 ≤ d.dayOfYear := by
  have hday := h.one_le_day
  unfold dayOfYear
  omega

theorem InCalendar.dayOfYear_le_daysInYear (h : d.InCalendar) :
    d.dayOfYear ≤ daysInYear d.year := by
  have hmonth : daysBeforeMonth d.year (d.month + 1) ≤ daysBeforeMonth d.year 13 :=
    daysBeforeMonth_le (by omega) (by have := h.month_le; omega)
  have hday := h.dayOfYear_le
  rw [daysBeforeMonth_thirteen] at hmonth
  omega

/-- The closed form of the days before a date counts the days of the years and months before it. -/
theorem InCalendar.toEpochDays_eq (h : d.InCalendar) :
    d.toEpochDays = daysBeforeYear d.year + d.dayOfYear - 1 - daysToEpoch := by
  have hmonth := daysBeforeMonth_eq d.year h.one_le_month h.month_le
  unfold toEpochDays dayOfYear
  rw [daysBeforeYear_eq, hmonth]
  dsimp only
  omega

/-- Dates in the order of the calendar. -/
instance : LT Date where
  lt d e := d.year < e.year ∨
    d.year = e.year ∧ (d.month < e.month ∨ d.month = e.month ∧ d.day < e.day)

theorem lt_def : d < e ↔ d.year < e.year ∨
    d.year = e.year ∧ (d.month < e.month ∨ d.month = e.month ∧ d.day < e.day) := Iff.rfl

theorem lt_or_eq_or_gt (d e : Date) : d < e ∨ d = e ∨ e < d := by
  obtain ⟨year, month, day⟩ := d
  obtain ⟨year', month', day'⟩ := e
  simp only [lt_def, Date.mk.injEq]
  omega

theorem InCalendar.toEpochDays_lt (hd : d.InCalendar) (he : e.InCalendar) (h : d < e) :
    d.toEpochDays < e.toEpochDays := by
  have hfirst := he.one_le_dayOfYear
  rw [hd.toEpochDays_eq, he.toEpochDays_eq]
  rcases h with hyear | ⟨hyear, hmonth | ⟨hmonth, hday⟩⟩
  · have hle : daysBeforeYear (d.year + 1) ≤ daysBeforeYear e.year := daysBeforeYear_le hyear
    have hlast := hd.dayOfYear_le_daysInYear
    rw [daysBeforeYear_add_one] at hle
    omega
  · have hle : daysBeforeMonth d.year (d.month + 1) ≤ daysBeforeMonth d.year e.month :=
      daysBeforeMonth_le (by omega) hmonth
    have hlast := hd.dayOfYear_le
    have hday := he.one_le_day
    have hdoy : e.dayOfYear = daysBeforeMonth d.year e.month + e.day := by
      rw [dayOfYear, hyear]
    rw [hyear] at hlast hle hdoy ⊢
    omega
  · have hdoy : d.dayOfYear = daysBeforeMonth e.year e.month + d.day := by
      rw [dayOfYear, hyear, hmonth]
    have hdoy' : e.dayOfYear = daysBeforeMonth e.year e.month + e.day := rfl
    rw [hyear]
    omega

theorem InCalendar.toEpochDays_lt_iff (hd : d.InCalendar) (he : e.InCalendar) :
    d.toEpochDays < e.toEpochDays ↔ d < e := by
  constructor
  · intro h
    rcases lt_or_eq_or_gt d e with hlt | rfl | hgt
    · exact hlt
    · exact absurd h (Int.lt_irrefl _)
    · have := toEpochDays_lt he hd hgt
      omega
  · exact toEpochDays_lt hd he

theorem InCalendar.eq_of_toEpochDays_eq (hd : d.InCalendar) (he : e.InCalendar)
    (h : d.toEpochDays = e.toEpochDays) : d = e := by
  rcases lt_or_eq_or_gt d e with hlt | heq | hgt
  · have := toEpochDays_lt hd he hlt
    omega
  · exact heq
  · have := toEpochDays_lt he hd hgt
    omega

/-- The days of a year are those before the start of the next one. -/
theorem InCalendar.lt_daysBeforeYear_iff (h : d.InCalendar) (year : Int) :
    d.toEpochDays < daysBeforeYear year - daysToEpoch ↔ d.year < year := by
  have hfirst := h.one_le_dayOfYear
  have hlast := h.dayOfYear_le_daysInYear
  have hnext := daysBeforeYear_add_one d.year
  rw [h.toEpochDays_eq]
  constructor
  · intro hlt
    refine Int.not_le.1 fun hle => ?_
    have hdays := daysBeforeYear_le hle
    omega
  · intro hlt
    have hdays : daysBeforeYear (d.year + 1) ≤ daysBeforeYear year := daysBeforeYear_le hlt
    omega

theorem InCalendar.toEpochDays_mem_range_iff (h : d.InCalendar) :
    d.toEpochDays ∈ Field.epochDay.range ↔ d.year ∈ Field.year.range := by
  have hmin : daysBeforeYear (-999999999) - daysToEpoch = -365243219162 := by decide
  have hmax : daysBeforeYear 1000000000 - daysToEpoch = 365241780472 := by decide
  have hlow := h.lt_daysBeforeYear_iff (-999999999)
  have hhigh := h.lt_daysBeforeYear_iff 1000000000
  rw [hmin] at hlow
  rw [hmax] at hhigh
  simp only [ValueRange.mem_def, Field.range, ValueRange.fixed]
  omega

/-- The bounds of a linear estimate of the days of years that start in March. -/
theorem mul_daysBeforeMarchYear_bounds (year : Int) :
    daysPerCycle * year - 591 ≤ 400 * daysBeforeMarchYear year ∧
      400 * daysBeforeMarchYear year ≤ daysPerCycle * year + 288 := by
  unfold daysBeforeMarchYear daysPerCycle
  omega

/-- The year that is estimated is the year of the day or the one after it. -/
theorem daysBeforeMarchYear_estimate (rest : Int) :
    daysBeforeMarchYear ((400 * rest + 591) / daysPerCycle - 1) ≤ rest ∧
      rest < daysBeforeMarchYear ((400 * rest + 591) / daysPerCycle + 1) := by
  have hbefore := mul_daysBeforeMarchYear_bounds ((400 * rest + 591) / daysPerCycle - 1)
  have hafter := mul_daysBeforeMarchYear_bounds ((400 * rest + 591) / daysPerCycle + 1)
  simp only [daysPerCycle] at hbefore hafter ⊢
  omega

theorem daysBeforeYear_add_daysBeforeMonth (year : Int) {m : Nat} (hm : m < 12) :
    daysBeforeYear (year + m / 10) + daysBeforeMonth (year + m / 10) ((m + 2) % 12 + 1) =
      daysBeforeMarchYear year + (m * 306 + 5) / 10 + 60 := by
  have hyear : daysBeforeMarchYear year = daysBeforeMarchYear (year - 1) + daysInYear year := by
    have h := daysBeforeMarchYear_add_one (year - 1)
    rwa [Int.sub_add_cancel] at h
  unfold daysInYear at hyear
  unfold daysBeforeYear
  cases hleap : isLeapYear year <;>
    interval_cases m <;>
      simp [daysBeforeMonth, daysInMonth, hleap] at hyear ⊢ <;> omega

theorem inCalendar_of_march (year dayOfYear : Int) (h0 : 0 ≤ dayOfYear)
    (h1 : dayOfYear < daysInYear (year + 1)) :
    let marchMonth := (dayOfYear * 5 + 2) / 153
    let d : Date := ⟨year + marchMonth / 10, ((marchMonth + 2) % 12 + 1).toNat,
      (dayOfYear - (marchMonth * 306 + 5) / 10 + 1).toNat⟩
    d.InCalendar ∧ d.toEpochDays = daysBeforeMarchYear year + dayOfYear + 60 - daysToEpoch := by
  intro marchMonth d
  have hyear := daysInYear_pos (year + 1)
  obtain ⟨m, hm, hm12⟩ : ∃ m : Nat, marchMonth = m ∧ m < 12 :=
    ⟨marchMonth.toNat, by omega, by omega⟩
  have hlow : 153 * m ≤ dayOfYear * 5 + 2 := by omega
  have hhigh : dayOfYear * 5 + 2 < 153 * (m + 1) := by omega
  have hd : d = ⟨year + m / 10, (m + 2) % 12 + 1, (dayOfYear - (m * 306 + 5) / 10 + 1).toNat⟩ := by
    simp only [d, hm, Date.mk.injEq, true_and, and_true]
    omega
  clear_value d marchMonth
  subst hd
  have hfirst := daysBeforeYear_add_daysBeforeMonth year hm12
  have hcal : (Date.mk (year + m / 10) ((m + 2) % 12 + 1)
      (dayOfYear - (m * 306 + 5) / 10 + 1).toNat).InCalendar := by
    refine ⟨by dsimp only; omega, by dsimp only; omega, by dsimp only; omega, ?_⟩
    dsimp only
    unfold daysInYear at h1
    cases hleap : isLeapYear (year + 1) <;> simp [hleap] at h1 <;>
      interval_cases m <;> simp [daysInMonth, hleap] <;> omega
  refine ⟨hcal, ?_⟩
  rw [hcal.toEpochDays_eq, Date.dayOfYear]
  dsimp only
  omega

/-- The whole cycles of four hundred years before a day leave a rest that is not negative. -/
theorem cycles_le (sinceMarch : Int) :
    (if sinceMarch < 0 then (sinceMarch + 1).tdiv daysPerCycle - 1 else 0) * daysPerCycle ≤
      sinceMarch := by
  split
  · rename_i hneg
    have htdiv : (sinceMarch + 1).tdiv daysPerCycle = -(-(sinceMarch + 1) / daysPerCycle) := by
      rw [← Int.tdiv_eq_ediv_of_nonneg (by omega), Int.neg_tdiv, Int.neg_neg]
    rw [htdiv]
    unfold daysPerCycle
    omega
  · omega

/-- Each day in range has a date, which is that of its place in a year that starts in March. -/
theorem ofEpochDays_eq_ok {n : Int} (hn : n ∈ Field.epochDay.range) :
    ∃ d, ofEpochDays n = .ok d ∧ d.InCalendar ∧ d.toEpochDays = n := by
  have hcheck : Field.epochDay.range.check .epochDay n = .ok n := if_pos hn
  have hcycles := cycles_le (n + daysToEpoch - 60)
  rw [ofEpochDays, hcheck]
  simp only [bind, Except.bind, pure, Except.pure]
  generalize (if n + daysToEpoch - 60 < 0 then
    (n + daysToEpoch - 60 + 1).tdiv daysPerCycle - 1 else 0) = cycles at hcycles ⊢
  generalize hrest : n + daysToEpoch - 60 - cycles * daysPerCycle = rest
  obtain ⟨hbefore, hafter⟩ := daysBeforeMarchYear_estimate rest
  generalize (400 * rest + 591) / daysPerCycle = estimate at hbefore hafter ⊢
  -- The estimate is put right if its year starts after the day.
  obtain ⟨year, hyear, hstart, hend⟩ : ∃ year,
      (if rest < daysBeforeMarchYear estimate then estimate - 1 else estimate) = year ∧
        daysBeforeMarchYear year ≤ rest ∧ rest < daysBeforeMarchYear (year + 1) := by
    by_cases hlate : rest < daysBeforeMarchYear estimate
    · exact ⟨estimate - 1, if_pos hlate, hbefore, by rwa [Int.sub_add_cancel]⟩
    · exact ⟨estimate, if_neg hlate, by omega, hafter⟩
  rw [hyear]
  have hlength := daysBeforeMarchYear_add_one (year + cycles * 400)
  have hshift := daysBeforeMarchYear_add_cycles year cycles
  have hshift' := daysBeforeMarchYear_add_cycles (year + 1) cycles
  rw [show year + 1 + cycles * 400 = year + cycles * 400 + 1 by omega] at hshift'
  obtain ⟨hcal, hdays⟩ := inCalendar_of_march (year + cycles * 400)
    (rest - daysBeforeMarchYear year) (by omega) (by omega)
  exact ⟨_, rfl, hcal, by rw [hdays]; omega⟩

theorem ofEpochDays_of_notMem {n : Int} (hn : n ∉ Field.epochDay.range) :
    ofEpochDays n = .error (.outOfRange .epochDay Field.epochDay.range n) := by
  have hcheck : Field.epochDay.range.check .epochDay n =
      .error (.outOfRange .epochDay Field.epochDay.range n) := if_neg hn
  rw [ofEpochDays, hcheck]
  rfl

theorem ofEpochDays_toEpochDays (hd : d.InCalendar) (hyear : d.year ∈ Field.year.range) :
    ofEpochDays d.toEpochDays = .ok d := by
  obtain ⟨found, hfound, hcal, hdays⟩ := ofEpochDays_eq_ok (hd.toEpochDays_mem_range_iff.2 hyear)
  rw [hfound, hcal.eq_of_toEpochDays_eq hd hdays]

/-- The dates of the years in range and the days in range correspond to each other, and a date is
before another if and only if its day is. A day out of range has no date. -/
theorem ofEpochDays_inverse_and_lt_iff :
    (∀ n ∈ Field.epochDay.range, ∃ d, ofEpochDays n = .ok d ∧
      Date.of d.year d.month d.day = .ok d ∧ d.toEpochDays = n) ∧
    (∀ year month day d, Date.of year month day = .ok d →
      d.toEpochDays ∈ Field.epochDay.range ∧ ofEpochDays d.toEpochDays = .ok d) ∧
    (∀ d e : Date, d.Valid → e.Valid → (d.toEpochDays < e.toEpochDays ↔ d < e)) ∧
    ∀ n, n ∉ Field.epochDay.range →
      ofEpochDays n = .error (.outOfRange .epochDay Field.epochDay.range n) := by
  refine ⟨?_, ?_, ?_, fun n hn => ofEpochDays_of_notMem hn⟩
  · intro n hn
    obtain ⟨d, hd, hcal, rfl⟩ := ofEpochDays_eq_ok hn
    have hvalid : d.Valid := valid_iff.2 ⟨hcal.toEpochDays_mem_range_iff.1 hn, hcal⟩
    exact ⟨d, hd, of_eq_ok_iff.2 ⟨rfl, hvalid⟩, rfl⟩
  · intro year month day d hd
    obtain ⟨hyear, hcal⟩ := valid_iff.1 (of_eq_ok_iff.1 hd).2
    exact ⟨hcal.toEpochDays_mem_range_iff.2 hyear, ofEpochDays_toEpochDays hcal hyear⟩
  · intro d e hd he
    exact (valid_iff.1 hd).2.toEpochDays_lt_iff (valid_iff.1 he).2

/-- The leap day of a year before year 0, and the day after it. -/
theorem ofEpochDays_inverse_and_lt_iff_leap_day :
    ofEpochDays (-720930) = .ok ⟨-4, 2, 29⟩ ∧
      ((⟨-4, 2, 29⟩ : Date).toEpochDays < (⟨-4, 3, 1⟩ : Date).toEpochDays ↔
        (⟨-4, 2, 29⟩ : Date) < ⟨-4, 3, 1⟩) ∧
      ofEpochDays 365241780472 =
        .error (.outOfRange .epochDay Field.epochDay.range 365241780472) := by
  obtain ⟨-, hinverse, hlt, hout⟩ := ofEpochDays_inverse_and_lt_iff
  have hdate : Date.of (-4) 2 29 = .ok ⟨-4, 2, 29⟩ := by decide
  exact ⟨(hinverse _ _ _ _ hdate).2, hlt _ _ (by decide) (by decide), hout _ (by decide)⟩

end Date

end DateTimeText
