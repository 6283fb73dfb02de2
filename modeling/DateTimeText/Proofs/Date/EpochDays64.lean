import DateTimeText.Proofs.Date.EpochDays
import DateTimeText.Proofs.Text.DigitSums

/-!
# Dates and their days in 64 bits

The day of a date and the date of a day are found in steps of 64 bits. A function with `64?` in its
name takes these steps one by one and gives nothing if one of them needs more. None does, for dates
of the years in range and for days in range.
-/

namespace DateTimeText

theorem inInt64?_of_le {n : Int} (hlow : -1000000000000000000 ≤ n)
    (hhigh : n ≤ 1000000000000000000) : inInt64? n = some n := by
  apply inInt64?_eq_some
  unfold FitsInt64 int64Min int64Max
  omega

def daysBeforeMarchYear64? (year : Int) : Option Int := do
  let days ← inInt64? (365 * year)
  let days ← inInt64? (days + year / 4)
  let days ← inInt64? (days - year / 100)
  inInt64? (days + year / 400)

theorem daysBeforeMarchYear64?_eq {year : Int} (hlow : -1000000000000 ≤ year)
    (hhigh : year ≤ 1000000000000) :
    daysBeforeMarchYear64? year = some (daysBeforeMarchYear year) := by
  simp (disch := omega) only [daysBeforeMarchYear64?, inInt64?_of_le, Option.bind_eq_bind,
    Option.bind_some, daysBeforeMarchYear]

namespace Date

/-! ### The day of a date -/

/-- The days of the years before a year, found from 365 days for each of them. -/
def addLeapDays64? (days year : Int) : Option Int :=
  if 0 ≤ year then do
    let fours ← inInt64? (year + 3)
    let hundreds ← inInt64? (year + 99)
    let cycles ← inInt64? (year + 399)
    let leaps ← inInt64? (fours / 4 - hundreds / 100)
    let leaps ← inInt64? (leaps + cycles / 400)
    inInt64? (days + leaps)
  else do
    let leaps ← inInt64? (year.tdiv (-4) - year.tdiv (-100))
    let leaps ← inInt64? (leaps + year.tdiv (-400))
    inInt64? (days - leaps)

/-- What `toEpochDays` gives, found in 64 bits. -/
def toEpochDays64? (d : Date) : Option Int := do
  let years ← inInt64? (365 * d.year)
  let total ← addLeapDays64? years d.year
  let scaled ← inInt64? (367 * d.month)
  let twelfths ← inInt64? (scaled - 362)
  let total ← inInt64? (total + twelfths / 12)
  let before ← inInt64? (d.day - 1)
  let total ← inInt64? (total + before)
  let total ← inInt64? (total - if d.month ≤ 2 then 0 else 1)
  let total ← inInt64? (total - if d.month ≤ 2 ∨ isLeapYear d.year then 0 else 1)
  inInt64? (total - daysToEpoch)

variable {d : Date}

theorem addLeapDays64?_eq {days year : Int} (hdays : -1000000000000 ≤ days)
    (hdays' : days ≤ 1000000000000) (hyear : -1000000000000 ≤ year)
    (hyear' : year ≤ 1000000000000) :
    addLeapDays64? days year = some (days + leapDaysBefore year) := by
  unfold addLeapDays64? leapDaysBefore
  split
  · simp (disch := omega) only [inInt64?_of_le, Option.bind_eq_bind, Option.bind_some]
  · have htdiv (n : Int) : year.tdiv (-n) = -year / n := by
      rw [Int.tdiv_neg, ← Int.neg_tdiv, Int.tdiv_eq_ediv_of_nonneg (by omega)]
    rw [htdiv, htdiv, htdiv]
    simp (disch := omega) only [inInt64?_of_le, Option.bind_eq_bind, Option.bind_some]
    rw [Int.sub_eq_add_neg]

theorem leapDaysBefore_bounds {year : Int} (hlow : -999999999 ≤ year) (hhigh : year ≤ 999999999) :
    -1000000000 ≤ leapDaysBefore year ∧ leapDaysBefore year ≤ 1000000000 := by
  unfold leapDaysBefore
  split <;> omega

/-- The days that February is short of thirty are taken off one by one. -/
theorem afterFebruary_eq (month : Nat) (leap : Bool) :
    ∃ first second : Int, (if month ≤ 2 then 0 else 1) = first ∧
      (if month ≤ 2 ∨ leap then 0 else 1) = second ∧
      (if month ≤ 2 then 0 else if leap then 1 else 2) = first + second ∧
      (0 ≤ first ∧ first ≤ 1) ∧ 0 ≤ second ∧ second ≤ 1 := by
  refine ⟨_, _, rfl, rfl, ?_⟩
  by_cases hmonth : month ≤ 2 <;> cases leap <;> simp [hmonth]

theorem Valid.toEpochDays64?_eq (h : d.Valid) : d.toEpochDays64? = some d.toEpochDays := by
  obtain ⟨hyear, hmonth, hmonth', hday, hday'⟩ := h
  have hlength := daysInMonth_le d.year d.month
  have hepoch : daysToEpoch = 719528 := rfl
  rw [ValueRange.mem_def] at hyear
  simp only [Field.range, ValueRange.fixed] at hyear
  obtain ⟨hleaps, hleaps'⟩ := leapDaysBefore_bounds hyear.1 hyear.2
  obtain ⟨first, second, hfirst, hsecond, hboth, hfirst', hsecond'⟩ :=
    afterFebruary_eq d.month (isLeapYear d.year)
  unfold toEpochDays64? toEpochDays
  rw [inInt64?_of_le (by omega) (by omega), Option.bind_eq_bind, Option.bind_some,
    addLeapDays64?_eq (by omega) (by omega) (by omega) (by omega), hfirst, hsecond, hboth]
  simp (disch := omega) only [inInt64?_of_le, Option.bind_some, Int.sub_sub]

/-! ### The date of a day -/

/-- The whole cycles of four hundred years before a day, if it is before March of year 0. -/
def cycles64? (sinceMarch : Int) : Option Int :=
  if sinceMarch < 0 then do
    let next ← inInt64? (sinceMarch + 1)
    inInt64? (next.tdiv daysPerCycle - 1)
  else some 0

/-- The year from a March on that a day is in, and the place of the day in it. -/
def marchYear64? (rest : Int) : Option (Int × Int) := do
  let scaled ← inInt64? (400 * rest)
  let sum ← inInt64? (scaled + 591)
  let estimate := sum / daysPerCycle
  let start ← daysBeforeMarchYear64? estimate
  let dayOfYear ← inInt64? (rest - start)
  if dayOfYear < 0 then do
    let year ← inInt64? (estimate - 1)
    let start ← daysBeforeMarchYear64? year
    let dayOfYear ← inInt64? (rest - start)
    return (year, dayOfYear)
  else return (estimate, dayOfYear)

/-- The date of a day at a place in a year from a March on. -/
def ofMarchYear64? (year dayOfYear : Int) : Option Date := do
  let fifths ← inInt64? (dayOfYear * 5)
  let sum ← inInt64? (fifths + 2)
  let marchMonth := sum / 153
  let shifted ← inInt64? (marchMonth + 2)
  let month ← inInt64? (shifted % 12 + 1)
  let tenths ← inInt64? (marchMonth * 306)
  let sum ← inInt64? (tenths + 5)
  let rest ← inInt64? (dayOfYear - sum / 10)
  let day ← inInt64? (rest + 1)
  let year ← inInt64? (year + marchMonth / 10)
  return ⟨year, month.toNat, day.toNat⟩

/-- What `ofEpochDays` gives, found in 64 bits. -/
def ofEpochDays64? (days : Int) : Option Date :=
  if days ∈ Field.epochDay.range then do
    let sinceYearZero ← inInt64? (days + daysToEpoch)
    let sinceMarch ← inInt64? (sinceYearZero - 60)
    let cycles ← cycles64? sinceMarch
    let adjust ← inInt64? (cycles * 400)
    let inCycles ← inInt64? (cycles * daysPerCycle)
    let rest ← inInt64? (sinceMarch - inCycles)
    let (year, dayOfYear) ← marchYear64? rest
    let year ← inInt64? (year + adjust)
    ofMarchYear64? year dayOfYear
  else none

theorem cycles64?_eq (sinceMarch : Int) (hlow : -1000000000000 ≤ sinceMarch) :
    ∃ cycles, (if sinceMarch < 0 then (sinceMarch + 1).tdiv daysPerCycle - 1 else 0) = cycles ∧
      cycles64? sinceMarch = some cycles ∧ -10000000 ≤ cycles ∧ cycles ≤ 0 := by
  unfold cycles64?
  split
  · have htdiv : (sinceMarch + 1).tdiv daysPerCycle = -(-(sinceMarch + 1) / daysPerCycle) := by
      rw [← Int.tdiv_eq_ediv_of_nonneg (by omega), Int.neg_tdiv, Int.neg_neg]
    unfold daysPerCycle at htdiv ⊢
    refine ⟨_, rfl, ?_, by omega, by omega⟩
    rw [inInt64?_of_le (by omega) (by omega), Option.bind_eq_bind, Option.bind_some,
      inInt64?_of_le (by omega) (by omega)]
  · exact ⟨0, rfl, rfl, by decide, Int.le_refl 0⟩

theorem marchYear64?_eq {rest : Int} (h0 : 0 ≤ rest) (h1 : rest ≤ 10000000000000) :
    ∃ year, (if rest < daysBeforeMarchYear ((400 * rest + 591) / daysPerCycle) then
        (400 * rest + 591) / daysPerCycle - 1 else (400 * rest + 591) / daysPerCycle) = year ∧
      marchYear64? rest = some (year, rest - daysBeforeMarchYear year) ∧
      (-1 ≤ year ∧ year ≤ 100000000000) ∧
      daysBeforeMarchYear year ≤ rest ∧ rest < daysBeforeMarchYear (year + 1) := by
  obtain ⟨hbefore, hafter⟩ := daysBeforeMarchYear_estimate rest
  obtain ⟨estimate, hestimate, hlow, hhigh⟩ :
      ∃ estimate, (400 * rest + 591) / daysPerCycle = estimate ∧ 0 ≤ estimate ∧
        estimate ≤ 100000000000 :=
    ⟨_, rfl, by unfold daysPerCycle; omega, by unfold daysPerCycle; omega⟩
  have hbounds (year : Int) (hlow : -1 ≤ year) (hhigh : year ≤ 100000000000) :
      -1000 ≤ daysBeforeMarchYear year ∧ daysBeforeMarchYear year ≤ 100000000000000 := by
    unfold daysBeforeMarchYear
    omega
  have hstart := hbounds estimate (by omega) hhigh
  have hstart' := hbounds (estimate - 1) (by omega) (by omega)
  unfold marchYear64?
  rw [hestimate] at hbefore hafter ⊢
  simp (disch := omega) only [inInt64?_of_le, Option.bind_eq_bind, Option.bind_some, hestimate,
    daysBeforeMarchYear64?_eq]
  by_cases hlate : rest < daysBeforeMarchYear estimate
  · rw [if_pos hlate, if_pos (by omega)]
    exact ⟨_, rfl, rfl, by omega, hbefore, by rwa [Int.sub_add_cancel]⟩
  · rw [if_neg hlate, if_neg (by omega)]
    exact ⟨_, rfl, rfl, by omega, by omega, hafter⟩

theorem ofMarchYear64?_eq {year dayOfYear : Int} (hlow : -1000000000000 ≤ year)
    (hhigh : year ≤ 1000000000000) (h0 : 0 ≤ dayOfYear) (h1 : dayOfYear ≤ 366) :
    ofMarchYear64? year dayOfYear =
      some ⟨year + (dayOfYear * 5 + 2) / 153 / 10,
        (((dayOfYear * 5 + 2) / 153 + 2) % 12 + 1).toNat,
        (dayOfYear - ((dayOfYear * 5 + 2) / 153 * 306 + 5) / 10 + 1).toNat⟩ := by
  unfold ofMarchYear64?
  simp (disch := omega) only [inInt64?_of_le, Option.bind_eq_bind, Option.bind_some]
  rfl

/-- Every day has the same date in 64 bits, or none if it is out of range. -/
theorem ofEpochDays64?_eq (n : Int) : ofEpochDays64? n = (ofEpochDays n).toOption := by
  unfold ofEpochDays64?
  split
  case isFalse hn =>
    rw [ofEpochDays_of_notMem hn]
    rfl
  case isTrue hn =>
    have hcheck : Field.epochDay.range.check .epochDay n = .ok n := if_pos hn
    have hepoch : daysToEpoch = 719528 := rfl
    have hcycle : daysPerCycle = 146097 := rfl
    rw [ValueRange.mem_def] at hn
    simp only [Field.range, ValueRange.fixed] at hn
    have hle := cycles_le (n + daysToEpoch - 60)
    obtain ⟨cycles, hcycles, hcycles64, hmin, hmax⟩ :=
      cycles64?_eq (n + daysToEpoch - 60) (by omega)
    rw [hcycles, hcycle] at hle
    obtain ⟨rest, hrest⟩ : ∃ rest, n + daysToEpoch - 60 - cycles * daysPerCycle = rest := ⟨_, rfl⟩
    have hbounds : 0 ≤ rest ∧ rest ≤ 10000000000000 := by
      rw [hcycle] at hrest
      omega
    obtain ⟨year, hyear, hyear64, hyears, hstart, hend⟩ := marchYear64?_eq hbounds.1 hbounds.2
    have hnext := daysBeforeMarchYear_add_one year
    have hlength := (daysInYear_pos (year + 1)).2
    rw [ofEpochDays, hcheck]
    simp only [bind, Except.bind, pure, Except.pure, hcycles, hrest, hyear]
    rw [inInt64?_of_le (by omega) (by omega), Option.bind_some,
      inInt64?_of_le (by omega) (by omega), Option.bind_some, hcycles64, Option.bind_some,
      inInt64?_of_le (by omega) (by omega), Option.bind_some,
      inInt64?_of_le (by omega) (by omega), Option.bind_some, hrest,
      inInt64?_of_le (by omega) (by omega), Option.bind_some, hyear64, Option.bind_some,
      inInt64?_of_le (by omega) (by omega), Option.bind_some,
      ofMarchYear64?_eq (by omega) (by omega) (by omega) (by omega)]
    rfl

end Date

end DateTimeText
