import DateTimeText.Proofs.Builder.Changes
import DateTimeText.Proofs.Pattern.Grammar

/-!
# Runs of letters

A builder takes a run of a letter exactly if the letter may be written that often.
-/

namespace DateTimeText

namespace Pattern

theorem admits_iff {c : Char} {least greatest count : Nat}
    (h : counts? c = some (least, greatest)) :
    Admits c count ↔ least ≤ count ∧ count ≤ greatest := by
  constructor
  · rintro ⟨l, g, hc, hcount⟩
    rw [h] at hc
    cases hc
    exact hcount
  · intro hcount
    exact ⟨least, greatest, h, hcount⟩

/-- The letters of the fields that are written as plain numbers. -/
theorem counts?_of_ofLetter? {c : Char} {f : Field} (h : Field.ofLetter? c = some f)
    (hG : ¬ (c = 'G' ∨ c = 'M' ∨ c = 'Q' ∨ c = 'E')) (ha : c ≠ 'a') (hS : c ≠ 'S') :
    counts? c = some (1, 19) := by
  unfold Field.ofLetter? at h
  split at h <;> simp_all [counts?]

theorem counts?_eq_none {c : Char} (h : Field.ofLetter? c = none) (hz : c ≠ 'z') (hV : c ≠ 'V')
    (hZ : c ≠ 'Z') (hX : ¬ (c = 'X' ∨ c = 'x')) : counts? c = none := by
  unfold counts?
  split <;> simp_all [Field.ofLetter?]

end Pattern

namespace Builder

variable {b : Builder} {f : Field} {letter : Char} {count : Nat}

theorem exists_unless_iff {refused : Prop} [Decidable refused] {e : ConfigurationError} :
    (∃ after, (if refused then .error e else .ok b : Except ConfigurationError Builder) =
      .ok after) ↔ ¬ refused := by
  split
  · rename_i hrefused
    refine iff_of_false ?_ (not_not_intro hrefused)
    rintro ⟨after, ⟨⟩⟩
  · rename_i htaken
    exact iff_of_true ⟨b, rfl⟩ htaken

theorem exists_appendFixed_iff {width : Nat} :
    (∃ after, b.appendFixed f width = .ok after) ↔ 1 ≤ width ∧ width ≤ maxDigits := by
  rw [appendFixed, exists_unless_iff]
  omega

theorem exists_letterWidth_bind_iff {k : Nat → Except ConfigurationError Builder} :
    (∃ after, (letterWidth count >>= k) = .ok after) ↔
      count ≤ 255 ∧ ∃ after, k count = .ok after := by
  constructor
  · rintro ⟨after, h⟩
    refine ⟨?_, after, eq_ok_of_letterWidth_bind h⟩
    by_contra hcount
    rw [letterWidth, if_pos (by omega)] at h
    cases h
  · rintro ⟨hcount, after, h⟩
    refine ⟨after, ?_⟩
    rw [letterWidth, if_neg (by omega)]
    exact h

theorem exists_appendYear_iff :
    (∃ after, b.appendYear count = .ok after) ↔ 1 ≤ count ∧ count ≤ 19 := by
  by_cases htwo : count = 2
  · rw [appendYear, if_pos htwo]
    refine iff_of_true ⟨_, rfl⟩ ?_
    omega
  rw [appendYear, if_neg htwo, exists_letterWidth_bind_iff]
  constructor
  · rintro ⟨-, after, h⟩
    have hwidth := (appendValueWith_eq_ok h).1.wellSized
    exact ⟨hwidth.one_le_minWidth, Nat.le_trans hwidth.minWidth_le_maxWidth hwidth.maxWidth_le⟩
  · intro hcount
    have hmax : maxDigits = 19 := rfl
    refine ⟨by omega, ?_⟩
    rw [appendValueWith, if_neg, if_neg (by omega), if_neg (by omega), if_neg (by omega)]
    · exact ⟨_, rfl⟩
    · rintro ⟨-, hsign⟩
      split at hsign <;> cases hsign

theorem exists_appendNumberOrText_iff :
    (∃ after, b.appendNumberOrText letter f count = .ok after) ↔ 1 ≤ count ∧ count ≤ 5 := by
  unfold appendNumberOrText
  split
  · exact iff_of_true ⟨_, rfl⟩ (by decide)
  · exact iff_of_true ⟨_, rfl⟩ (by decide)
  · exact iff_of_true ⟨_, rfl⟩ (by decide)
  · exact iff_of_true ⟨_, rfl⟩ (by decide)
  · exact iff_of_true ⟨_, rfl⟩ (by decide)
  · rename_i hone htwo hthree hfour hfive
    simp only [imp_false] at hone htwo hthree hfour hfive
    refine iff_of_false ?_ (by omega)
    rintro ⟨after, ⟨⟩⟩

theorem exists_appendHalfDay_iff :
    (∃ after, b.appendHalfDay letter f count = .ok after) ↔ count ≤ 5 := by
  unfold appendHalfDay
  split
  · exact iff_of_true ⟨_, rfl⟩ (by omega)
  split
  · exact iff_of_true ⟨_, rfl⟩ (by omega)
  split
  · exact iff_of_true ⟨_, rfl⟩ (by omega)
  · refine iff_of_false ?_ (by omega)
    rintro ⟨after, ⟨⟩⟩

theorem exists_appendFraction_iff {width : Nat} (hf : f.range.IsFixed) :
    (∃ after, b.appendFraction f width width false = .ok after) ↔ 1 ≤ width ∧ width ≤ 9 := by
  unfold appendFraction Fraction.of
  rw [if_neg (not_not_intro hf)]
  split
  · refine iff_of_false ?_ (by omega)
    rintro ⟨after, ⟨⟩⟩
  split
  · refine iff_of_false ?_ (by omega)
    rintro ⟨after, ⟨⟩⟩
  rw [if_neg (Nat.lt_irrefl width)]
  exact iff_of_true ⟨_, rfl⟩ (by omega)

/-- A run of a letter that stands for a field. -/
theorem exists_appendField_iff (hletter : Field.ofLetter? letter = some f) (hpos : 0 < count) :
    (∃ after, b.appendField letter f count = .ok after) ↔ Pattern.Admits letter count := by
  unfold appendField
  by_cases hy : letter = 'y'
  · rw [if_pos hy, exists_appendYear_iff, Pattern.admits_iff (by rw [hy]; rfl)]
  rw [if_neg hy]
  by_cases hG : letter = 'G' ∨ letter = 'M' ∨ letter = 'Q' ∨ letter = 'E'
  · have hcounts : Pattern.counts? letter = some (1, 5) := by
      rcases hG with rfl | rfl | rfl | rfl <;> rfl
    rw [if_pos hG, exists_appendNumberOrText_iff, Pattern.admits_iff hcounts]
  rw [if_neg hG]
  by_cases ha : letter = 'a'
  · rw [if_pos ha, exists_appendHalfDay_iff, Pattern.admits_iff (by rw [ha]; rfl)]
    omega
  rw [if_neg ha]
  by_cases hS : letter = 'S'
  · have hfixed : f.range.IsFixed := by
      rw [hS] at hletter
      cases hletter
      exact ⟨rfl, rfl⟩
    rw [if_pos hS, exists_letterWidth_bind_iff, exists_appendFraction_iff hfixed,
      Pattern.admits_iff (by rw [hS]; rfl)]
    omega
  rw [if_neg hS, Pattern.admits_iff (Pattern.counts?_of_ofLetter? hletter hG ha hS)]
  by_cases hone : count = 1
  · rw [if_pos hone]
    exact iff_of_true ⟨_, rfl⟩ (by omega)
  · rw [if_neg hone, exists_letterWidth_bind_iff, exists_appendFixed_iff, maxDigits]
    omega

theorem offsetPattern?_eq_none_iff (hpos : 0 < count) : offsetPattern? count = none ↔ 5 < count := by
  unfold offsetPattern?
  split
  · exact iff_of_false nofun (by decide)
  · exact iff_of_false nofun (by decide)
  · exact iff_of_false nofun (by decide)
  · exact iff_of_false nofun (by decide)
  · exact iff_of_false nofun (by decide)
  · rename_i hone htwo hthree hfour hfive
    simp only [imp_false] at hone htwo hthree hfour hfive
    exact iff_of_true rfl (by omega)

/-- A run of a letter is taken exactly if the letter may be written that often. -/
theorem exists_appendLetters_iff (hpos : 0 < count) :
    (∃ after, b.appendLetters letter count = .ok after) ↔ Pattern.Admits letter count := by
  unfold appendLetters
  cases hletter : Field.ofLetter? letter with
  | some f => exact exists_appendField_iff hletter hpos
  | none =>
      by_cases hz : letter = 'z'
      · simp only [if_pos hz]
        rw [exists_unless_iff, Pattern.admits_iff (by rw [hz]; rfl)]
        omega
      by_cases hV : letter = 'V'
      · simp only [if_neg hz, if_pos hV]
        rw [exists_unless_iff, Pattern.admits_iff (by rw [hV]; rfl)]
        omega
      by_cases hZ : letter = 'Z'
      · simp only [if_neg hz, if_neg hV, if_pos hZ]
        rw [exists_unless_iff, Pattern.admits_iff (by rw [hZ]; rfl)]
        omega
      by_cases hX : letter = 'X' ∨ letter = 'x'
      · have hcounts : Pattern.counts? letter = some (1, 5) := by
          rcases hX with rfl | rfl <;> rfl
        simp only [if_neg hz, if_neg hV, if_neg hZ, if_pos hX]
        rw [Pattern.admits_iff hcounts]
        cases hpattern : offsetPattern? count with
        | none =>
            have hmany := (offsetPattern?_eq_none_iff hpos).1 hpattern
            refine iff_of_false ?_ (by omega)
            rintro ⟨after, ⟨⟩⟩
        | some p =>
            have hfew : ¬ 5 < count := by
              rw [← offsetPattern?_eq_none_iff hpos, hpattern]
              nofun
            exact iff_of_true ⟨_, rfl⟩ (by omega)
      · simp only [if_neg hz, if_neg hV, if_neg hZ, if_neg hX]
        refine iff_of_false ?_ ?_
        · rintro ⟨after, ⟨⟩⟩
        · rintro ⟨least, greatest, hcounts, -⟩
          rw [Pattern.counts?_eq_none hletter hz hV hZ hX] at hcounts
          cases hcounts

end Builder

end DateTimeText
