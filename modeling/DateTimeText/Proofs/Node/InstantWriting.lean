import DateTimeText.Proofs.Date.Succession
import DateTimeText.Proofs.Node.InstantText
import DateTimeText.Proofs.Node.Rendering

/-!
# Writing an instant

A second of the time-line belongs to one date and time of day, found by counting days, and an
instant is written as these: the year with its sign, two digits for each of the other parts, and the
shortest fraction that says the nanosecond.
-/

namespace DateTimeText

namespace Instant

/-- The fraction of a nanosecond of a second: nothing for zero, and otherwise a point and the fewest
of three, six or nine digits that say it exactly. -/
inductive ShortestFraction (nano : Nat) : List Char → Prop
  | absent (hzero : nano = 0) : ShortestFraction nano []
  | digits {width n : Nat} (hzero : nano ≠ 0) (hwidth : width ∈ [3, 6, 9]) (hn : n < tenPow width)
      (hexact : n * tenPow (9 - width) = nano)
      (hleast : ∀ shorter ∈ [3, 6, 9], shorter < width →
        ∀ m, m * tenPow (9 - shorter) ≠ nano) : ShortestFraction nano ('.' :: zeroPadded width n)

theorem fractionText_shortest {nano : Nat} (hnano : nano < 1000000000) :
    ShortestFraction nano (fractionText nano) := by
  unfold fractionText
  by_cases hzero : nano = 0
  · rw [if_pos hzero]
    exact .absent hzero
  rw [if_neg hzero]
  by_cases hmilli : nano % 1000000 = 0
  · rw [if_pos hmilli]
    refine .digits hzero (by decide) (by simp only [tenPow]; omega)
      (by simp only [tenPow]; omega) ?_
    simp only [List.mem_cons, List.not_mem_nil, or_false]
    omega
  rw [if_neg hmilli]
  -- Three digits are not enough if the nanosecond has a part of a millisecond.
  have hthree : ∀ m, m * tenPow (9 - 3) ≠ nano := by
    simp only [tenPow]
    omega
  by_cases hmicro : nano % 1000 = 0
  · rw [if_pos hmicro]
    refine .digits hzero (by decide) (by simp only [tenPow]; omega)
      (by simp only [tenPow]; omega) ?_
    intro shorter hmem hlt
    obtain rfl : shorter = 3 := by simp at hmem; omega
    exact hthree
  · rw [if_neg hmicro]
    refine .digits hzero (by decide) (by simp only [tenPow]; omega) (Nat.mul_one nano) ?_
    intro shorter hmem hlt
    obtain rfl | rfl : shorter = 3 ∨ shorter = 6 := by simp at hmem; omega
    · exact hthree
    · simp only [tenPow]
      omega

end Instant

namespace Node

open Instant

/-- An instant is written whatever its second is, as the one date and time of day that its second
belongs to, with a year of any number of digits. -/
theorem print_instant {v : Components} {seconds : Int} {nano : Nat}
    (hseconds : v.field .instantSeconds = some seconds) (hnano : v.field .nanoOfSecond = some ↑nano)
    (hmax : nano ≤ 999999999) (s : Settings) (buffer : List Char) :
    ∃ dt : DateTime,
      (∀ other : DateTime, DateTime.IsSecond seconds other ∧ other.time.nano = nano ↔ other = dt) ∧
      ∃ fraction, ShortestFraction nano fraction ∧
        instant.print s v buffer =
          (buffer ++ (yearSign dt.date.year ++ zeroPadded 4 dt.date.year.natAbs ++
            '-' :: zeroPadded 2 dt.date.month ++ '-' :: zeroPadded 2 dt.date.day ++
            'T' :: zeroPadded 2 dt.time.hour ++ ':' :: zeroPadded 2 dt.time.minute ++
            ':' :: zeroPadded 2 dt.time.second ++ fraction ++ ['Z']), .ok true) := by
  have hlt : nano < 1000000000 := Nat.lt_succ_of_le hmax
  obtain ⟨dt, hdt, hat, hdtnano, hrender⟩ := render_eq_utcText seconds hlt
  have hsecond : DateTime.IsSecond seconds dt := DateTime.isSecond_iff.2 ⟨hdt, hat⟩
  have htext : instant.render s v = .ok (some (utcText dt)) := by
    rw [Node.render, renderTo, renderWith, renderComponents, hseconds, hnano]
    dsimp only
    rw [hrender]
  have hwrites := (print_writes s v instant buffer).eq
  rw [htext] at hwrites
  refine ⟨dt, ?_, fractionText nano, fractionText_shortest hlt, ?_⟩
  · intro other
    constructor
    · rintro ⟨hother, hothernano⟩
      exact hother.unique hsecond (hothernano.trans hdtnano.symm)
    · rintro rfl
      exact ⟨hsecond, hdtnano⟩
  · rw [hwrites, utcText_eq, restText, hdtnano]
    simp only [List.append_assoc, List.cons_append]

example : instant.print (.ofLocale "en") (Instant.components ⟨-693306086401, 500⟩) [] =
    ("-20000-01-02T23:59:59.000000500Z".toList, .ok true) := by
  decide +kernel

/-- The year −20000 after its first day is a year −10000 of the era that it is found in. -/
theorem print_instant_year_minus_twenty_thousand :
    (Instant.components ⟨-693306086401, 500⟩).field .instantSeconds = some (-693306086401) ∧
      (Instant.components ⟨-693306086401, 500⟩).field .nanoOfSecond = some ((500 : Nat) : Int) ∧
      500 ≤ 999999999 ∧
      ∀ (s : Settings) (buffer : List Char), ∃ dt : DateTime,
        (∀ other : DateTime,
          DateTime.IsSecond (-693306086401) other ∧ other.time.nano = 500 ↔ other = dt) ∧
        ∃ fraction, ShortestFraction 500 fraction ∧
          instant.print s (Instant.components ⟨-693306086401, 500⟩) buffer =
            (buffer ++ (yearSign dt.date.year ++ zeroPadded 4 dt.date.year.natAbs ++
              '-' :: zeroPadded 2 dt.date.month ++ '-' :: zeroPadded 2 dt.date.day ++
              'T' :: zeroPadded 2 dt.time.hour ++ ':' :: zeroPadded 2 dt.time.minute ++
              ':' :: zeroPadded 2 dt.time.second ++ fraction ++ ['Z']), .ok true) :=
  ⟨rfl, rfl, by decide, fun s buffer => print_instant rfl rfl (by decide) s buffer⟩

end Node

end DateTimeText
