import DateTimeText.Proofs.Node.Canonical
import DateTimeText.Proofs.Node.InstantShape
import DateTimeText.Proofs.Node.IsoParts
import DateTimeText.Proofs.Node.OptionalSection
import DateTimeText.Proofs.Text.Letters

/-!
# Reading an instant

What the parts of an instant have read is a text of its shape, part by part, and the components hold
what it says. A part that was read determines the text in front of what is left: a row of digits, a
character in any case, or nothing of a section.
-/

namespace DateTimeText

namespace Components

theorem addResult_value {v : Components} {f : Field} (hf : v.field f = none) (x : Int)
    (body rest : List Char) :
    v.addResult (.ok (.value f x body rest)) = .ok (v.set f x, rest) := by
  simp only [addResult, add?, Reading.value, addFields?, hf, Option.map_some, Option.none_or]

end Components

theorem Mode.strip?_singleton_eq_some {mode : Mode} {a : Char} {text rest : List Char}
    (h : mode.strip? [a] text = some rest) :
    ∃ c, mode.sameChar a c = true ∧ text = c :: rest := by
  cases text with
  | nil => cases h
  | cons c text =>
      rw [strip?] at h
      split at h
      · rename_i hsame
        cases h
        exact ⟨c, hsame, rfl⟩
      · cases h

namespace Iso

theorem exact_twoDigits (f : Field) : (Numeral.plain f 2 2 .notNegative).Exact 2 :=
  ⟨by decide, by decide, rfl, rfl, rfl, rfl, nofun⟩

/-- A year is read from four to ten digits behind a sign, if it has one. -/
theorem readDigits_yearNumeral_eq_ok {s : Symbols} {sign : Option Numeral.Sign}
    {start body : List Char} {r : Reading}
    (h : yearNumeral.readDigits s true sign start body = .ok r) :
    ∃ (year : Digits 4 10) (rest : List Char), body = year.chars s ++ rest ∧
      r = .value .year (if sign = some .negative then -year.number else year.number) body rest := by
  obtain ⟨hlimit, hlt, -⟩ := s.digitRun_spec 10 body
  have hsplit := s.eq_append_of_digitRun 10 body
  have hrun : s.digitRun (yearNumeral.maxWidth + yearNumeral.reserved) body =
      s.digitRun 10 body := rfl
  generalize s.digitRun 10 body = ds at hrun hlimit hlt hsplit
  have htake : ds.take (max yearNumeral.minWidth (ds.length - yearNumeral.reserved)) = ds :=
    List.take_of_length_le (Nat.le_max_right _ _)
  obtain ⟨hlong, -, hr⟩ := (Numeral.readDigits_eq_ok_iff hrun htake).1 h
  rw [Numeral.fitting_of_length_lt hlt (Nat.lt_of_le_of_lt hlimit (by decide))] at hr
  exact ⟨⟨ds, hlt, hlong, hlimit⟩, body.drop ds.length, hsplit, hr⟩

theorem read_yearNumeral_eq_ok {s : Symbols} {text : List Char} {r : Reading}
    (h : yearNumeral.read s true text = .ok r) :
    ∃ (sign : Option Numeral.Sign) (year : Digits 4 10) (body rest : List Char),
      text = (sign.map (Numeral.Sign.char s)).toList ++ (year.chars s ++ rest) ∧
      r = .value .year (if sign = some .negative then -year.number else year.number) body rest := by
  obtain ⟨sign, body, -, htext, hread⟩ := Numeral.exists_sign_of_read h
  obtain ⟨year, rest, rfl, hr⟩ := readDigits_yearNumeral_eq_ok hread
  exact ⟨sign, year, _, rest, htext, hr⟩

end Iso

/-- A fraction of a second is not there, or it is a separator and nine digits at most. -/
theorem Fraction.isoNano_read_eq_ok {s : Symbols} {text : List Char} {r : Reading}
    (h : isoNano.read s true text = .ok r) :
    r = .skip text ∨ ∃ (digits : Digits 0 9) (body rest : List Char),
      text = s.decimal :: digits.chars s ++ rest ∧
      r = .value .nanoOfSecond (Instant.Shape.fractionNano (some digits)) body rest := by
  rcases read_eq_ok h with ⟨-, rfl⟩ | ⟨ds, rest, htext, -, hle, hlt, rfl⟩
  · exact .inl rfl
  · have hlen : ds.length ≤ 9 := hle
    have hvalue : valueOf isoNano.field.range ds =
        Instant.Shape.fractionNano (some (⟨ds, hlt, Nat.zero_le _, hlen⟩ : Digits 0 9)) := by
      rw [Instant.Shape.fractionNano, Digits.number, ← mul_div_tenPow hlen]
      exact valueOf_nano ds
    rw [hvalue]
    exact .inr ⟨⟨ds, hlt, Nat.zero_le _, hlen⟩, ds.map s.digitChar ++ rest, rest, htext, rfl⟩

namespace Node

/-- The nanosecond of a fraction is stored, if there is one. -/
def setFraction (v : Components) : Option (Digits 0 9) → Components
  | none => v
  | some digits => v.set .nanoOfSecond (Instant.Shape.fractionNano (some digits))

def setSecond (v : Components) : Option (Digits 2 2 × Option (Digits 0 9)) → Components
  | none => v
  | some (second, fraction) => setFraction (v.set .secondOfMinute second.number) fraction

variable {expand : Node → Mode → Components → List Char → ReadResult} {st : Settings}
  {m after : Mode} {v w : Components} {nodes : List Node} {text rest : List Char}

/-- A character is read in any case that the mode admits. -/
theorem readAllWith_char_eq_ok {a : Char}
    (h : readAllWith expand st (literal [a] :: nodes) m v text = (after, .ok (w, rest))) :
    ∃ c middle, m.sameChar a c = true ∧ text = c :: middle ∧
      readAllWith expand st nodes m v middle = (after, .ok (w, rest)) := by
  obtain ⟨r, u, middle, hread, hadd, hnodes⟩ := readAllWith_leaf_eq_ok h
  rw [Leaf.read, Leaf.readLiteral] at hread
  cases hstrip : m.strip? [a] text with
  | none =>
      rw [hstrip] at hread
      cases hread
  | some stop =>
      rw [hstrip] at hread
      cases hread
      cases hadd
      obtain ⟨c, hc, htext⟩ := Mode.strip?_singleton_eq_some hstrip
      exact ⟨c, _, hc, htext, hnodes⟩

theorem readAllWith_year_eq_ok (hstrict : m.strict = true) (hf : v.field .year = none)
    (h : readAllWith expand st (numeral Iso.yearNumeral :: nodes) m v text =
      (after, .ok (w, rest))) :
    ∃ (sign : Option Numeral.Sign) (year : Digits 4 10) (middle : List Char),
      text = (sign.map (Numeral.Sign.char st.symbols)).toList ++
        (year.chars st.symbols ++ middle) ∧
      readAllWith expand st nodes m
        (v.set .year (if sign = some .negative then -year.number else year.number)) middle =
          (after, .ok (w, rest)) := by
  obtain ⟨r, u, middle, hread, hadd, hnodes⟩ := readAllWith_leaf_eq_ok h
  rw [Leaf.read, hstrict] at hread
  obtain ⟨sign, year, body, stop, htext, rfl⟩ := Iso.read_yearNumeral_eq_ok hread
  rw [Components.addResult_value hf] at hadd
  cases hadd
  exact ⟨sign, year, _, htext, hnodes⟩

theorem readAllWith_twoDigits_eq_ok (hstrict : m.strict = true) {f : Field}
    (hf : v.field f = none)
    (h : readAllWith expand st (Iso.twoDigits f :: nodes) m v text = (after, .ok (w, rest))) :
    ∃ (digits : Digits 2 2) (middle : List Char), text = digits.chars st.symbols ++ middle ∧
      readAllWith expand st nodes m (v.set f digits.number) middle = (after, .ok (w, rest)) := by
  obtain ⟨r, u, middle, hread, hadd, hnodes⟩ := readAllWith_leaf_eq_ok h
  rw [Leaf.read, hstrict] at hread
  obtain ⟨ds, stop, hlen, hlt, htext, rfl⟩ := (Iso.exact_twoDigits f).hasWidth.read_eq_ok hread
  have hfield : (Numeral.plain f 2 2 .notNegative).field = f := rfl
  rw [hfield, Components.addResult_value hf] at hadd
  cases hadd
  exact ⟨⟨ds, hlt, Nat.le_of_eq hlen.symm, Nat.le_of_eq hlen⟩, _, htext, hnodes⟩

section

variable (hexpand : ∀ nodes m v text, anySetsMode nodes = false →
  (expand (group nodes false) m v text).1 = m)

include hexpand

/-- A section without changes of the mode is read, or nothing of it. -/
theorem readAllWith_section_eq_ok {inner : List Node} (hinner : anySetsMode inner = false)
    (h : readAllWith expand st (group inner true :: nodes) m v text = (after, .ok (w, rest))) :
    ∃ u middle, (readAllWith expand st inner m v text = (m, .ok (u, middle)) ∨
        u = v ∧ middle = text) ∧
      readAllWith expand st nodes m u middle = (after, .ok (w, rest)) := by
  have hmode := mode_readAllWith (s := st) hexpand inner m v text hinner
  obtain ⟨mode, u, middle, hsection, hnodes⟩ := readAllWith_cons_eq_ok h
  rw [readWith] at hsection
  rcases hread : readAllWith expand st inner m v text with ⟨own, stop | ⟨x, start⟩⟩
  · rw [hread] at hsection hmode
    cases hsection
    cases hmode
    exact ⟨_, _, .inr ⟨rfl, rfl⟩, hnodes⟩
  · rw [hread] at hsection hmode
    cases hsection
    cases hmode
    exact ⟨_, _, .inl rfl, hnodes⟩

theorem readAllWith_secondFraction_eq_ok (hstrict : m.strict = true)
    (hf : v.field .nanoOfSecond = none)
    (h : readAllWith expand st (Iso.secondFraction :: nodes) m v text = (after, .ok (w, rest))) :
    ∃ fraction middle, text = Instant.Shape.fractionChars st.symbols fraction ++ middle ∧
      readAllWith expand st nodes m (setFraction v fraction) middle = (after, .ok (w, rest)) := by
  obtain ⟨u, middle, hsection | ⟨rfl, rfl⟩, hnodes⟩ := readAllWith_section_eq_ok hexpand rfl h
  · obtain ⟨r, x, stop, hread, hadd, hdone⟩ := readAllWith_leaf_eq_ok hsection
    rw [readAllWith] at hdone
    cases hdone
    rw [Leaf.read, hstrict] at hread
    rcases Fraction.isoNano_read_eq_ok hread with rfl | ⟨digits, body, stop, htext, rfl⟩
    · cases hadd
      exact ⟨none, _, rfl, hnodes⟩
    · rw [Components.addResult_value hf] at hadd
      cases hadd
      exact ⟨some digits, _, htext, hnodes⟩
  · exact ⟨none, middle, rfl, hnodes⟩

theorem readAllWith_seconds_eq_ok {ci : Mode} (hci : ci = ⟨false, true⟩)
    (hsecond : v.field .secondOfMinute = none)
    (hnano : v.field .nanoOfSecond = none)
    (h : readAllWith expand st (Iso.seconds :: nodes) ci v text = (after, .ok (w, rest))) :
    ∃ second middle, text = Instant.Shape.secondChars st.symbols second ++ middle ∧
      readAllWith expand st nodes ci (setSecond v second) middle = (after, .ok (w, rest)) := by
  have hstrict : ci.strict = true := hci ▸ rfl
  obtain ⟨u, middle, hsection | ⟨rfl, rfl⟩, hnodes⟩ := readAllWith_section_eq_ok hexpand rfl h
  · obtain ⟨c, text₁, hcolon, rfl, hdigits⟩ := readAllWith_char_eq_ok hsection
    obtain ⟨second, text₂, rfl, hfraction⟩ := readAllWith_twoDigits_eq_ok hstrict hsecond hdigits
    obtain ⟨fraction, text₃, rfl, hdone⟩ := readAllWith_secondFraction_eq_ok hexpand hstrict
      (by simpa using hnano) hfraction
    rw [readAllWith] at hdone
    cases hdone
    obtain rfl : c = ':' := Mode.eq_of_sameChar (by decide) hcolon
    exact ⟨some (second, fraction), _, by simp [Instant.Shape.secondChars], hnodes⟩
  · exact ⟨none, middle, rfl, hnodes⟩

/-- The parts of an instant are read from a text of their shape, whether or not its date and time of
day exist. -/
theorem readWith_instantParts_eq_ok
    (h : readWith expand st Iso.instantParts .initial .empty text = (after, .ok (w, rest))) :
    ∃ t : Instant.Shape, text = t.chars st.symbols ++ rest ∧ Instant.HasParts w t.dateTime := by
  have hparts : readAllWith expand st ([mode .caseInsensitive] ++ Iso.localDate ++
      [literal ['T']] ++ Iso.localTime ++ [literal ['Z']]) .initial .empty text =
        (after, .ok (w, rest)) := by
    rw [← h, Iso.instantParts, readWith]
  obtain ⟨ci, _, _, hmode, hyear⟩ := readAllWith_cons_eq_ok hparts
  rw [readWith] at hmode
  obtain ⟨happly, hrest⟩ := Prod.mk.inj hmode
  cases hrest
  have hci : ci = ⟨false, true⟩ := happly.symm
  have hstrict : ci.strict = true := hci ▸ rfl
  have hletter : ∀ {a c : Char}, ci.sameChar a c = true → sameLetter a c = true := by
    intro a c hsame
    rwa [hci] at hsame
  obtain ⟨sign, year, text₁, rfl, hdash⟩ := readAllWith_year_eq_ok hstrict rfl hyear
  obtain ⟨dash, text₂, hsame, rfl, hmonth⟩ := readAllWith_char_eq_ok hdash
  obtain rfl := Mode.eq_of_sameChar (by decide) hsame
  obtain ⟨month, text₃, rfl, hdash'⟩ := readAllWith_twoDigits_eq_ok hstrict rfl hmonth
  obtain ⟨dash, text₄, hsame, rfl, hday⟩ := readAllWith_char_eq_ok hdash'
  obtain rfl := Mode.eq_of_sameChar (by decide) hsame
  obtain ⟨day, text₅, rfl, hseparator⟩ := readAllWith_twoDigits_eq_ok hstrict rfl hday
  obtain ⟨separator, text₆, hsame, rfl, hhour⟩ := readAllWith_char_eq_ok hseparator
  have hT := eq_of_sameLetter_T (hletter hsame)
  obtain ⟨hour, text₇, rfl, hcolon⟩ := readAllWith_twoDigits_eq_ok hstrict rfl hhour
  obtain ⟨colon, text₈, hsame, rfl, hminute⟩ := readAllWith_char_eq_ok hcolon
  obtain rfl := Mode.eq_of_sameChar (by decide) hsame
  obtain ⟨minute, text₉, rfl, hsecond⟩ := readAllWith_twoDigits_eq_ok hstrict rfl hminute
  obtain ⟨second, text₁₀, rfl, hzone⟩ := readAllWith_seconds_eq_ok hexpand hci rfl rfl hsecond
  obtain ⟨zone, text₁₁, hsame, rfl, hdone⟩ := readAllWith_char_eq_ok hzone
  have hZ := eq_of_sameLetter_Z (hletter hsame)
  rw [readAllWith] at hdone
  cases hdone
  refine ⟨⟨sign, year, month, day, separator, hour, minute, second, zone, hT, hZ⟩, ?_, ?_⟩
  · simp [Instant.Shape.chars]
  · obtain _ | ⟨second, _ | fraction⟩ := second
    all_goals exact ⟨rfl, rfl, rfl, rfl, rfl, rfl, rfl⟩

end

/-- An instant is read from a text of its shape whose date and time of day exist. -/
theorem read_instant_eq_ok {s : Settings}
    (h : instant.read s m .empty text = (after, .ok (w, rest))) :
    ∃ t : Instant.Shape, text = t.chars s.symbols ++ rest ∧ t.dateTime.InCalendar ∧
      w = (Components.empty.set .instantSeconds (t.dateTime.toEpochSeconds 0)).set .nanoOfSecond
        t.nano := by
  rw [read, readTo, readWith] at h
  rcases hparts : readTo s 0 Iso.instantParts .initial .empty text with ⟨own, stop | ⟨u, middle⟩⟩
  · rw [hparts] at h
    cases h
  obtain ⟨t, rfl, hu⟩ := readWith_instantParts_eq_ok (fun _ _ _ _ _ => rfl) hparts
  have hinstant := hu.ofComponents?_eq (Instant.Shape.fractionNano_lt _)
  rw [hparts] at h
  dsimp only at h
  rw [instantReading, hinstant] at h
  by_cases hdt : t.dateTime.InCalendar
  · rw [if_pos hdt] at h
    cases h
    exact ⟨t, rfl, hdt, rfl⟩
  · rw [if_neg hdt] at h
    cases h

end Node

end DateTimeText
