import DateTimeText.Formatter.Iso
import DateTimeText.Proofs.Formatter.Reading

/-!
# Ranges of the years of chronologies

The years of a chronology are shifted against those of the ISO calendar, and so are the ranges of
its years, its months and the years of its era. All years and months of a chronology lie in these
ranges, and the bounds of a range stand in order, except for the years of an era that began before
that of the ISO calendar: their last year is taken for the last one before the era.
-/

namespace DateTimeText

namespace ValueRange

/-- Whether no bound of a range is behind the next one. -/
def Ordered (r : ValueRange) : Prop :=
  r.min ≤ r.largestMin ∧ r.largestMin ≤ r.smallestMax ∧ r.smallestMax ≤ r.max

instance (r : ValueRange) : Decidable r.Ordered :=
  inferInstanceAs (Decidable (_ ∧ _))

theorem ordered_fixed {min max : Int} (h : min ≤ max) : (fixed min max).Ordered :=
  ⟨Int.le_refl min, h, Int.le_refl max⟩

end ValueRange

theorem Field.ordered_range (f : Field) : f.range.Ordered := by
  cases f <;> decide

namespace Components

/-- The values that are out of range are the only ones that a check reports. -/
theorem exists_of_checkRanges_eq_error {v : Components} {c : Chronology} {e : PrintError}
    (h : v.checkRanges c = .error e) :
    ∃ f value, v.field f = some value ∧ value ∉ c.range f ∧
      e = .outOfRange f (c.range f) value := by
  obtain ⟨⟨f, value⟩, hmem, hcheck⟩ := exists_of_forM_eq_error h
  obtain ⟨g, -, hg⟩ := List.mem_filterMap.1 hmem
  obtain ⟨x, hx, hpair⟩ := Option.map_eq_some_iff.1 hg
  cases hpair
  refine ⟨f, value, hx, ?_⟩
  dsimp only at hcheck
  unfold ValueRange.check at hcheck
  by_cases hin : value ∈ c.range f
  · rw [if_pos hin] at hcheck
    cases hcheck
  · rw [if_neg hin] at hcheck
    cases hcheck
    exact ⟨hin, rfl⟩

end Components

namespace Chronology

/-- The year within its era, which counts from 1 on, also backwards from the year 0. -/
def yearWithinEra (year : Int) : Int :=
  if 1 ≤ year then year else 1 - year

variable {c : Chronology} {year : Int}

theorem mem_range_year_iff :
    year ∈ c.range .year ↔
      -999999999 - c.yearOffset ≤ year ∧ year ≤ 999999999 - c.yearOffset := by
  rw [ValueRange.mem_def, range]
  split
  · rename_i hzero
    simp only [hzero, Field.range, ValueRange.fixed, Int.sub_zero]
  · simp only [Field.range, ValueRange.fixed]

theorem mem_range_prolepticMonth_iff {month : Int} :
    month ∈ c.range .prolepticMonth ↔
      -11999999988 - c.yearOffset * 12 ≤ month ∧ month ≤ 11999999999 - c.yearOffset * 12 := by
  rw [ValueRange.mem_def, range]
  split
  · rename_i hzero
    simp only [hzero, Field.range, ValueRange.fixed, Int.zero_mul, Int.sub_zero]
  · simp only [Field.range, ValueRange.fixed]

theorem range_yearOfEra (c : Chronology) :
    c.range .yearOfEra =
      .variableMax 1 (999999999 - c.yearOffset) (1000000000 + c.yearOffset) := by
  rw [range]
  split
  · rename_i hzero
    rw [hzero]
    rfl
  · rfl

theorem mem_range_yearOfEra_iff :
    yearWithinEra year ∈ c.range .yearOfEra ↔
      yearWithinEra year ≤ 1000000000 + c.yearOffset := by
  have hone : 1 ≤ yearWithinEra year := by
    unfold yearWithinEra
    split <;> omega
  rw [range_yearOfEra, ValueRange.mem_def]
  exact and_iff_right hone

theorem range_of_ne {f : Field} (hyear : f ≠ .year) (hmonth : f ≠ .prolepticMonth)
    (hera : f ≠ .yearOfEra) : c.range f = f.range := by
  cases f with
  | year => exact absurd rfl hyear
  | prolepticMonth => exact absurd rfl hmonth
  | yearOfEra => exact absurd rfl hera
  | _ => exact ite_self _

/-- The bounds of all ranges are in order but for the years of an era that began early. -/
theorem ordered_range_iff (hc : c.yearOffset.natAbs ≤ 100000000) (f : Field) :
    (c.range f).Ordered ↔ (f = .yearOfEra → 0 ≤ c.yearOffset) := by
  by_cases hera : f = .yearOfEra
  · rw [hera, range_yearOfEra]
    simp only [ValueRange.Ordered, ValueRange.variableMax, forall_const]
    omega
  refine iff_of_true ?_ fun h => absurd h hera
  by_cases hyear : f = .year
  · rw [hyear, range]
    split
    · exact Field.ordered_range _
    · exact ValueRange.ordered_fixed (by simp only [Field.range, ValueRange.fixed]; omega)
  by_cases hmonth : f = .prolepticMonth
  · rw [hmonth, range]
    split
    · exact Field.ordered_range _
    · exact ValueRange.ordered_fixed (by simp only [Field.range, ValueRange.fixed]; omega)
  rw [range_of_ne hyear hmonth hera]
  exact Field.ordered_range f

/-- Every year of a chronology is a year of its era, unless the era began early: then the last of
its years is none. -/
theorem forall_yearWithinEra_mem_iff :
    (∀ year ∈ c.range .year, yearWithinEra year ∈ c.range .yearOfEra) ↔ 0 ≤ c.yearOffset := by
  simp only [mem_range_yearOfEra_iff, mem_range_year_iff]
  constructor
  · intro h
    have hlast := h (999999999 - c.yearOffset)
    unfold yearWithinEra at hlast
    split at hlast
    · omega
    · omega
  · rintro h year ⟨hlow, hhigh⟩
    unfold yearWithinEra
    split
    · omega
    · omega

theorem prolepticMonth_mem {month : Int} (hyear : year ∈ c.range .year) (hone : 1 ≤ month)
    (hmonth : month ≤ 12) : year * 12 + month - 1 ∈ c.range .prolepticMonth := by
  rw [mem_range_year_iff] at hyear
  rw [mem_range_prolepticMonth_iff]
  omega

/-- The ranges of a chronology are in order, and those of its eras and months cover its years, if
and only if its years do not run ahead of those of the ISO calendar. A formatter then reports no year
of an era that a year of the chronology has. -/
theorem ranges_ordered_and_cover_years_iff (hc : c.yearOffset.natAbs ≤ 100000000) :
    ((∀ f, (c.range f).Ordered) ↔ 0 ≤ c.yearOffset) ∧
    ((∀ year ∈ c.range .year, yearWithinEra year ∈ c.range .yearOfEra ∧
        ∀ month, 1 ≤ month → month ≤ 12 → year * 12 + month - 1 ∈ c.range .prolepticMonth) ↔
      0 ≤ c.yearOffset) ∧
    (0 ≤ c.yearOffset → ∀ (f : Formatter) (text : List Char) (v : Components) (year : Int),
      f.parseStart text = .ok (v, []) → f.settings.parseChronology v = c →
        year ∈ c.range .year → v.field .yearOfEra = some (yearWithinEra year) →
          ∀ short r value, f.parse text ≠ .error (.invalidValue short
            (.outOfRange .yearOfEra r value))) := by
  refine ⟨?ordered, ?covered, ?parsed⟩
  case ordered =>
    simp only [ordered_range_iff hc]
    exact ⟨fun h => h .yearOfEra rfl, fun h f _ => h⟩
  case covered =>
    rw [← forall_yearWithinEra_mem_iff]
    constructor
    · intro h year hyear
      exact (h year hyear).1
    · intro h year hyear
      exact ⟨h year hyear, fun month hone hmonth => prolepticMonth_mem hyear hone hmonth⟩
  case parsed =>
    intro h f text v year hstart hchronology hyear hera short r value hparse
    have hin := forall_yearWithinEra_mem_iff.2 h year hyear
    rw [Formatter.parse, hstart] at hparse
    dsimp only at hparse
    rw [hchronology] at hparse
    cases hcheck : v.checkRanges c with
    | ok u =>
        rw [hcheck] at hparse
        cases hparse
    | error e =>
        rw [hcheck] at hparse
        obtain ⟨g, x, hx, hout, rfl⟩ := Components.exists_of_checkRanges_eq_error hcheck
        cases hparse
        rw [hera] at hx
        cases hx
        exact hout hin

theorem ranges_ordered_and_cover_years_minguo :
    minguo.yearOffset.natAbs ≤ 100000000 ∧ (∀ f, (minguo.range f).Ordered) ∧
      yearWithinEra (-1000001910) ∈ minguo.range .yearOfEra := by
  have hc : minguo.yearOffset.natAbs ≤ 100000000 := by decide
  obtain ⟨hordered, hcover, -⟩ := ranges_ordered_and_cover_years_iff hc
  exact ⟨hc, hordered.2 (by decide), (hcover.2 (by decide) _ (by decide)).1⟩

/-- The last Buddhist year is read as such, and refused as a year of the era. -/
theorem thaiBuddhist_last_year_refused :
    thaiBuddhist.yearOffset.natAbs ≤ 100000000 ∧ ¬ (thaiBuddhist.range .yearOfEra).Ordered ∧
      1000000542 ∈ thaiBuddhist.range .year ∧
      yearWithinEra 1000000542 ∉ thaiBuddhist.range .yearOfEra ∧
      (Formatter.ofNodes [.leaf (.chronology none), .literal [' '],
          .numeral (.plain .yearOfEra 1 10 .normal)]).parse "ThaiBuddhist 1000000542".toList =
        .error (.invalidValue "ThaiBuddhist 1000000542"
          (.outOfRange .yearOfEra (.variableMax 1 1000000542 999999457) 1000000542)) := by
  refine ⟨by decide, by decide, by decide, by decide, by rfl⟩

end Chronology

end DateTimeText
