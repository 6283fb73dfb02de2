import DateTimeText.Proofs.Date.EpochDays64
import DateTimeText.Proofs.Date.Succession

/-!
# The seconds of the time-line and their date-times

At every offset the date-times of the years in range and the seconds of the time-line that belong to
them correspond to each other, and the nanoseconds of a day to its times. No step from one to the
other needs more than 64 bits, for offsets of 32 bits.
-/

namespace DateTimeText

namespace Time

/-- What `secondOfDay` gives, found in 64 bits. -/
def secondOfDay64? (t : Time) : Option Int := do
  let hours ← inInt64? (t.hour * 3600)
  let minutes ← inInt64? (t.minute * 60)
  let sum ← inInt64? (hours + minutes)
  inInt64? (sum + t.second)

variable {t : Time}

theorem Valid.secondOfDay64?_eq (h : t.Valid) : t.secondOfDay64? = some t.secondOfDay := by
  obtain ⟨hhour, hminute, hsecond, -⟩ := h
  unfold secondOfDay64?
  simp (disch := omega) only [inInt64?_of_le, Option.bind_eq_bind, Option.bind_some]
  rfl

theorem exists_ofNanoOfDay_eq {nanos : Int} (h0 : 0 ≤ nanos) (h1 : nanos ≤ 86399999999999) :
    ∃ t, ofNanoOfDay nanos = .ok t ∧ t.Valid ∧ t.nanoOfDay = nanos := by
  have hsplit : nanos / nanosPerSecond * nanosPerSecond +
      ((nanos % nanosPerSecond).toNat : Nat) = nanos := by
    unfold nanosPerSecond
    omega
  have hfirst : 0 ≤ nanos / nanosPerSecond := by
    unfold nanosPerSecond
    omega
  have hlast : nanos / nanosPerSecond < secondsPerDay := by
    unfold nanosPerSecond secondsPerDay
    omega
  have hnano : (nanos % nanosPerSecond).toNat < 1000000000 := by
    unfold nanosPerSecond
    omega
  obtain ⟨t, ht, hvalid, hsecond, hrest⟩ := ofNanoOfDay_eq_ok hfirst hlast hnano
  rw [hsplit] at ht
  refine ⟨t, ht, hvalid, ?_⟩
  rw [nanoOfDay, hsecond, hrest, hsplit]

theorem Valid.nano_lt (h : t.Valid) : t.nano < 1000000000 :=
  h.2.2.2

theorem Valid.ofNanoOfDay_nanoOfDay (h : t.Valid) : ofNanoOfDay t.nanoOfDay = .ok t := by
  obtain ⟨found, hfound, hvalid, hsecond, hnano⟩ :=
    ofNanoOfDay_eq_ok t.secondOfDay_nonneg h.secondOfDay_lt h.nano_lt
  rw [nanoOfDay, hfound, hvalid.eq_of_secondOfDay_eq h hsecond hnano]

theorem Valid.nanoOfDay_bounds (h : t.Valid) :
    0 ≤ t.nanoOfDay ∧ t.nanoOfDay ≤ 86399999999999 := by
  have hfirst := t.secondOfDay_nonneg
  have hlast := h.secondOfDay_lt
  have hnano := h.nano_lt
  unfold secondsPerDay at hlast
  unfold nanoOfDay nanosPerSecond
  omega

end Time

namespace DateTime

/-- What `ofEpochSeconds` gives, found in 64 bits. -/
def ofEpochSeconds64? (seconds : Int) (nanos : Nat) (offset : Int) : Option DateTime := do
  let shifted ← inInt64? (seconds + offset)
  let date ← Date.ofEpochDays64? (shifted / secondsPerDay)
  let start ← inInt64? (shifted % secondsPerDay * nanosPerSecond)
  let nano ← inInt64? (start + (nanos % 1000000000 : Nat))
  let time ← (Time.ofNanoOfDay nano).toOption
  return ⟨date, time⟩

/-- What `toEpochSeconds` gives, found in 64 bits. -/
def toEpochSeconds64? (dt : DateTime) (offset : Int) : Option Int := do
  let days ← dt.date.toEpochDays64?
  let midnight ← inInt64? (days * secondsPerDay)
  let second ← dt.time.secondOfDay64?
  let seconds ← inInt64? (midnight + second)
  inInt64? (seconds - offset)

variable {dt : DateTime} {seconds offset : Int} {nanos : Nat}

/-! ### From seconds to date-times -/

theorem ofEpochSeconds_of_not_fits (h : ¬ FitsInt64 (seconds + offset)) :
    ofEpochSeconds seconds nanos offset = .error .instantOutOfRange := by
  rw [ofEpochSeconds, if_pos h]
  rfl

theorem exists_ofEpochSeconds_iff : (∃ dt, ofEpochSeconds seconds nanos offset = .ok dt) ↔
    FitsInt64 (seconds + offset) ∧ (seconds + offset) / secondsPerDay ∈ Field.epochDay.range := by
  constructor
  · rintro ⟨dt, hdt⟩
    have hfits : FitsInt64 (seconds + offset) := by
      by_contra hfits
      rw [ofEpochSeconds_of_not_fits hfits] at hdt
      cases hdt
    refine ⟨hfits, ?_⟩
    by_contra hday
    rw [ofEpochSeconds, if_neg (not_not_intro hfits), Date.ofEpochDays_of_notMem hday] at hdt
    cases hdt
  · rintro ⟨hfits, hday⟩
    obtain ⟨dt, hdt, -⟩ := ofEpochSeconds_eq_ok hfits hday nanos
    exact ⟨dt, hdt⟩

/-- All seconds have the same date-time in 64 bits, or none if they are out of range. -/
theorem ofEpochSeconds64?_eq (seconds : Int) (nanos : Nat) (offset : Int) :
    ofEpochSeconds64? seconds nanos offset = (ofEpochSeconds seconds nanos offset).toOption := by
  by_cases hfits : FitsInt64 (seconds + offset)
  case neg =>
    rw [ofEpochSeconds_of_not_fits hfits, ofEpochSeconds64?, inInt64?, if_neg hfits]
    rfl
  case pos =>
    rw [ofEpochSeconds64?, inInt64?_eq_some hfits, Option.bind_eq_bind, Option.bind_some,
      Date.ofEpochDays64?_eq, ofEpochSeconds, if_neg (not_not_intro hfits)]
    cases Date.ofEpochDays ((seconds + offset) / secondsPerDay) with
    | error e => rfl
    | ok date =>
        have hunit : nanosPerSecond = 1000000000 := rfl
        have hnano : nanos % 1000000000 < 1000000000 := Nat.mod_lt _ (by decide)
        have hsecond : 0 ≤ (seconds + offset) % secondsPerDay ∧
            (seconds + offset) % secondsPerDay < 86400 := by
          unfold secondsPerDay
          omega
        generalize (seconds + offset) % secondsPerDay = second at hsecond ⊢
        generalize nanos % 1000000000 = nano at hnano ⊢
        rw [hunit]
        simp (disch := omega) only [Except.toOption, inInt64?_of_le, Option.bind_some]
        cases Time.ofNanoOfDay (second * 1000000000 + nano) with
        | error e => rfl
        | ok time => rfl

theorem ediv_secondsPerDay_toEpochSeconds (htime : dt.time.Valid) (offset : Int) :
    (dt.toEpochSeconds offset + offset) / secondsPerDay = dt.date.toEpochDays := by
  have hfirst := dt.time.secondOfDay_nonneg
  have hlast := htime.secondOfDay_lt
  unfold toEpochSeconds
  unfold secondsPerDay at hlast ⊢
  omega

/-- A date-time that is found is that of its seconds, in a year in range. -/
theorem valid_of_ofEpochSeconds (h : ofEpochSeconds seconds nanos offset = .ok dt) :
    (dt.date.Valid ∧ dt.time.Valid) ∧ dt.time.nano = nanos % 1000000000 ∧
      dt.toEpochSeconds offset = seconds := by
  obtain ⟨hfits, hday⟩ := exists_ofEpochSeconds_iff.1 ⟨dt, h⟩
  obtain ⟨found, hfound, hcal, rfl, hnano⟩ := ofEpochSeconds_eq_ok hfits hday nanos
  obtain rfl : found = dt := Except.ok.inj (hfound.symm.trans h)
  rw [ediv_secondsPerDay_toEpochSeconds hcal.time, hcal.date.toEpochDays_mem_range_iff] at hday
  exact ⟨⟨Date.valid_iff.2 ⟨hday, hcal.date⟩, hcal.time⟩, hnano, rfl⟩

/-! ### From date-times to seconds -/

theorem toEpochDays_bounds (h : dt.date.Valid) :
    -365243219162 ≤ dt.date.toEpochDays ∧ dt.date.toEpochDays ≤ 365241780471 := by
  obtain ⟨hyear, hcal⟩ := Date.valid_iff.1 h
  exact hcal.toEpochDays_mem_range_iff.2 hyear

theorem toEpochSeconds64?_eq (hdate : dt.date.Valid) (htime : dt.time.Valid)
    (hlow : -2147483648 ≤ offset) (hhigh : offset ≤ 2147483647) :
    dt.toEpochSeconds64? offset = some (dt.toEpochSeconds offset) := by
  have hday := toEpochDays_bounds hdate
  have hfirst := dt.time.secondOfDay_nonneg
  have hlast := htime.secondOfDay_lt
  unfold toEpochSeconds64? toEpochSeconds
  rw [hdate.toEpochDays64?_eq, htime.secondOfDay64?_eq]
  unfold secondsPerDay at hlast ⊢
  simp (disch := omega) only [inInt64?_of_le, Option.bind_eq_bind, Option.bind_some]

theorem InCalendar.eq_of_toEpochSeconds_eq {other : DateTime} (h : dt.InCalendar)
    (hother : other.InCalendar) (hseconds : dt.toEpochSeconds offset = other.toEpochSeconds offset)
    (hnano : dt.time.nano = other.time.nano) : dt = other := by
  refine (isSecond_iff.2 ⟨h, rfl⟩).unique (isSecond_iff.2 ⟨hother, ?_⟩) hnano
  unfold toEpochSeconds at hseconds ⊢
  omega

theorem ofEpochSeconds_toEpochSeconds (hdate : dt.date.Valid) (htime : dt.time.Valid)
    (offset : Int) : ofEpochSeconds (dt.toEpochSeconds offset) dt.time.nano offset = .ok dt := by
  obtain ⟨hyear, hcal⟩ := Date.valid_iff.1 hdate
  have hfits : FitsInt64 (dt.toEpochSeconds offset + offset) := by
    have hday := toEpochDays_bounds hdate
    have hfirst := dt.time.secondOfDay_nonneg
    have hlast := htime.secondOfDay_lt
    unfold toEpochSeconds FitsInt64 int64Min int64Max
    unfold secondsPerDay at hlast ⊢
    omega
  have hday : (dt.toEpochSeconds offset + offset) / secondsPerDay ∈ Field.epochDay.range := by
    rw [ediv_secondsPerDay_toEpochSeconds htime]
    exact hcal.toEpochDays_mem_range_iff.2 hyear
  obtain ⟨found, hfound, hfound', hseconds, hnanos⟩ := ofEpochSeconds_eq_ok hfits hday dt.time.nano
  rw [Nat.mod_eq_of_lt htime.nano_lt] at hnanos
  rw [hfound, hfound'.eq_of_toEpochSeconds_eq ⟨hcal, htime⟩ hseconds hnanos]

/-- Seconds have a date-time at an offset if and only if their day is in range, and it is a date-time
that exists and has these seconds. Every date-time that exists, in a year in range, is that of its
seconds at every offset of 32 bits, all found in 64 bits. The nanoseconds of a day and its times
correspond to each other. -/
theorem ofEpochSeconds_inverse :
    (∀ (seconds : Int) (nanos : Nat) (offset : Int),
      ((∃ dt, ofEpochSeconds seconds nanos offset = .ok dt) ↔ FitsInt64 (seconds + offset) ∧
          (seconds + offset).fdiv secondsPerDay ∈ Field.epochDay.range) ∧
        ofEpochSeconds64? seconds nanos offset = (ofEpochSeconds seconds nanos offset).toOption ∧
        ∀ dt, ofEpochSeconds seconds nanos offset = .ok dt → (dt.date.Valid ∧ dt.time.Valid) ∧
          dt.time.nano = nanos % 1000000000 ∧ dt.toEpochSeconds offset = seconds) ∧
    (∀ (dt : DateTime) (offset : Int), dt.date.Valid → dt.time.Valid → -2147483648 ≤ offset →
      offset ≤ 2147483647 → ofEpochSeconds (dt.toEpochSeconds offset) dt.time.nano offset = .ok dt ∧
        dt.toEpochSeconds64? offset = some (dt.toEpochSeconds offset) ∧
        ofEpochSeconds64? (dt.toEpochSeconds offset) dt.time.nano offset = some dt) ∧
    (∀ nanos : Int, 0 ≤ nanos → nanos ≤ 86399999999999 →
      ∃ t, Time.ofNanoOfDay nanos = .ok t ∧ t.Valid ∧ t.nanoOfDay = nanos) ∧
    ∀ t : Time, t.Valid → (0 ≤ t.nanoOfDay ∧ t.nanoOfDay ≤ 86399999999999) ∧
      Time.ofNanoOfDay t.nanoOfDay = .ok t := by
  refine ⟨fun seconds nanos offset => ⟨?_, ?_, ?_⟩, ?_, ?_, ?_⟩
  · rw [Int.fdiv_eq_ediv_of_nonneg _ (by decide)]
    exact exists_ofEpochSeconds_iff
  · exact ofEpochSeconds64?_eq seconds nanos offset
  · intro dt hdt
    exact valid_of_ofEpochSeconds hdt
  · intro dt offset hdate htime hlow hhigh
    have hback := ofEpochSeconds_toEpochSeconds hdate htime offset
    refine ⟨hback, toEpochSeconds64?_eq hdate htime hlow hhigh, ?_⟩
    rw [ofEpochSeconds64?_eq, hback]
    rfl
  · intro nanos h0 h1
    exact Time.exists_ofNanoOfDay_eq h0 h1
  · intro t ht
    exact ⟨ht.nanoOfDay_bounds, ht.ofNanoOfDay_nanoOfDay⟩

/-- The last moment of the last year, far to the west of UTC, and the second before 1970. -/
theorem ofEpochSeconds_inverse_last_moment :
    let dt : DateTime := ⟨⟨999999999, 12, 31⟩, ⟨23, 59, 59, 999999999⟩⟩
    (dt.date.Valid ∧ dt.time.Valid ∧ (-2147483648 : Int) ≤ -2147483648) ∧
      ofEpochSeconds 31556891980264447 999999999 (-2147483648) = .ok dt ∧
      dt.toEpochSeconds64? (-2147483648) = some 31556891980264447 ∧
      (∃ e, ofEpochSeconds 31556891980264448 0 (-2147483648) = .error e) ∧
      ∃ t, Time.ofNanoOfDay 86399999999999 = .ok t ∧ t.nanoOfDay = 86399999999999 := by
  intro dt
  have hdate : dt.date.Valid := by decide
  have htime : dt.time.Valid := by decide
  have hlast : dt.toEpochSeconds (-2147483648) = 31556891980264447 := by decide
  obtain ⟨hseconds, hdt, hnanos, -⟩ := ofEpochSeconds_inverse
  obtain ⟨hback, h64, -⟩ := hdt dt (-2147483648) hdate htime (by decide) (by decide)
  rw [hlast] at hback h64
  obtain ⟨t, ht, -, hnano⟩ := hnanos 86399999999999 (by decide) (by decide)
  refine ⟨⟨hdate, htime, Int.le_refl _⟩, hback, h64, ?_, t, ht, hnano⟩
  cases h : ofEpochSeconds 31556891980264448 0 (-2147483648) with
  | error e => exact ⟨e, rfl⟩
  | ok found =>
      have hrange := ((hseconds 31556891980264448 0 (-2147483648)).1.1 ⟨found, h⟩).2
      exact absurd hrange (by decide)

end DateTime

end DateTimeText
