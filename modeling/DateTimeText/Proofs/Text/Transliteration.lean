import DateTimeText.Proofs.Text.Digits
import DateTimeText.Text.Position

/-!
# Texts in other digits

A text is written in other digits by replacing each of its ASCII digits by the one that stands as
far behind another zero digit. A character that is no digit of either stays, and nothing else
becomes it.
-/

namespace DateTimeText

/-- Whether a character is one of the ten digits from a zero digit on. -/
def IsDigitOf (zero c : Char) : Prop :=
  zero.toNat ≤ c.toNat ∧ c.toNat ≤ zero.toNat + 9

instance (zero c : Char) : Decidable (IsDigitOf zero c) :=
  inferInstanceAs (Decidable (_ ∧ _))

/-- A character, or the digit that stands for it if it is an ASCII digit. -/
def transliterate (zero c : Char) : Char :=
  if IsDigitOf '0' c then Char.ofNat (zero.toNat + (c.toNat - '0'.toNat)) else c

/-- A character that is neither an ASCII digit nor a digit from a zero digit on. -/
structure NoDigit (zero c : Char) : Prop where
  not_ascii : ¬ IsDigitOf '0' c
  not_digit : ¬ IsDigitOf zero c

instance (zero c : Char) : Decidable (NoDigit zero c) :=
  decidable_of_iff (¬ IsDigitOf '0' c ∧ ¬ IsDigitOf zero c)
    ⟨fun ⟨hascii, hdigit⟩ => ⟨hascii, hdigit⟩, fun ⟨hascii, hdigit⟩ => ⟨hascii, hdigit⟩⟩

/-- A text without digits from a zero digit on. -/
def Spares (zero : Char) (text : List Char) : Prop :=
  ∀ c ∈ text, ¬ IsDigitOf zero c

instance (zero : Char) (text : List Char) : Decidable (Spares zero text) :=
  List.decidableBAll _ text

variable {zero c : Char}

theorem transliterate_of_not_ascii (hc : ¬ IsDigitOf '0' c) : transliterate zero c = c :=
  if_neg hc

theorem map_transliterate_of_noDigit {text : List Char} (htext : ∀ c ∈ text, NoDigit zero c) :
    text.map (transliterate zero) = text :=
  (List.map_congr_left fun c hc => transliterate_of_not_ascii (htext c hc).not_ascii).trans
    (List.map_id text)

theorem Spares.of_suffix {text rest : List Char} (h : Spares zero text)
    (hrest : rest <:+ text) : Spares zero rest :=
  fun c hc => h c (hrest.subset hc)

namespace Symbols

def withZero (s : Symbols) (zero : Char) : Symbols :=
  { s with zero := zero }

/-- A zero digit beyond ASCII with nine more digits behind it, for symbols that have ASCII digits
and no digit of either kind as a sign or separator. -/
structure Admits (s : Symbols) (zero : Char) : Prop where
  zero_eq : s.zero = '0'
  nine_lt : '9' < zero
  isValidChar : ∀ d < 10, (zero.toNat + d).isValidChar
  positive : NoDigit zero s.positive
  negative : NoDigit zero s.negative
  decimal : NoDigit zero s.decimal

/-- The standard symbols take any zero digit beyond ASCII. -/
theorem standard_admits (hlt : '9' < zero)
    (hvalid : ∀ d < 10, (zero.toNat + d).isValidChar) : standard.Admits zero := by
  have hnine : 57 < zero.toNat := hlt
  have hnone : ∀ c : Char, c.toNat < 48 → NoDigit zero c := by
    intro c hc
    have h48 : '0'.toNat = 48 := rfl
    refine ⟨?_, ?_⟩
    · unfold IsDigitOf
      omega
    · unfold IsDigitOf
      omega
  exact ⟨rfl, hlt, hvalid, hnone '+' (by decide), hnone '-' (by decide), hnone '.' (by decide)⟩

variable {s : Symbols}

theorem toNat_transliterate (h : s.Admits zero) (hc : IsDigitOf '0' c) :
    (transliterate zero c).toNat = zero.toNat + (c.toNat - 48) := by
  have h48 : '0'.toNat = 48 := rfl
  have hvalid : (zero.toNat + (c.toNat - 48)).isValidChar :=
    h.isValidChar _ (by unfold IsDigitOf at hc; omega)
  rw [transliterate, if_pos hc, h48, Char.ofNat, dif_pos hvalid]
  rfl

theorem isDigitOf_transliterate (h : s.Admits zero) (hc : IsDigitOf '0' c) :
    IsDigitOf zero (transliterate zero c) := by
  have h48 : '0'.toNat = 48 := rfl
  rw [IsDigitOf, toNat_transliterate h hc]
  unfold IsDigitOf at hc
  omega

theorem transliterate_zero (h : s.Admits zero) : transliterate zero s.zero = zero := by
  rw [h.zero_eq, transliterate, if_pos (by decide), Nat.sub_self, Nat.add_zero, Char.ofNat_toNat]

/-- Only a character that is no digit becomes one. -/
theorem transliterate_eq_iff (h : s.Admits zero) {e : Char} (he : NoDigit zero e) :
    transliterate zero c = e ↔ c = e := by
  by_cases hc : IsDigitOf '0' c
  · refine iff_of_false ?_ ?_
    · rintro rfl
      exact he.not_digit (isDigitOf_transliterate h hc)
    · rintro rfl
      exact he.not_ascii hc
  · rw [transliterate_of_not_ascii hc]

/-- A character has the value of a digit that it had before. -/
theorem digit?_transliterate (h : s.Admits zero) (hc : ¬ IsDigitOf zero c) :
    (s.withZero zero).digit? (transliterate zero c) = s.digit? c := by
  have h48 : '0'.toNat = 48 := rfl
  have hzero : (s.withZero zero).zero = zero := rfl
  rw [digit?, digit?, hzero, h.zero_eq, h48]
  by_cases hdigit : IsDigitOf '0' c
  · have hn := toNat_transliterate h hdigit
    unfold IsDigitOf at hdigit
    rw [hn, if_pos (by omega), if_pos (by omega), Nat.add_sub_cancel_left]
  · rw [transliterate_of_not_ascii hdigit]
    exact (if_neg hc).trans (if_neg hdigit).symm

theorem digitRun_transliterate (h : s.Admits zero) {text : List Char} (htext : Spares zero text)
    (limit : Nat) :
    (s.withZero zero).digitRun limit (text.map (transliterate zero)) = s.digitRun limit text := by
  induction limit generalizing text with
  | zero => rfl
  | succ limit ih =>
      cases text with
      | nil => rfl
      | cons c text =>
          obtain ⟨hc, hrest⟩ := List.forall_mem_cons.1 htext
          rw [List.map_cons, digitRun, digitRun, digit?_transliterate h hc, ih hrest]

theorem localizeChar_withZero (h : s.Admits zero) (c : Char) :
    (s.withZero zero).localizeChar c = transliterate zero (s.localizeChar c) := by
  have h48 : '0'.toNat = 48 := rfl
  have hascii : s.localizeChar c = c := by
    unfold localizeChar
    simp only [h.zero_eq, h48, Nat.add_sub_cancel, Char.ofNat_toNat, ite_self]
  have hdigit : c.isDigit = true ↔ IsDigitOf '0' c := Char.isDigit_iff_toNat
  rw [hascii, localizeChar, transliterate]
  by_cases hc : IsDigitOf '0' c
  · have hn : c.toNat + zero.toNat - 48 = zero.toNat + (c.toNat - 48) := by
      unfold IsDigitOf at hc
      omega
    have hvalid : (zero.toNat + (c.toNat - 48)).isValidChar :=
      h.isValidChar _ (by unfold IsDigitOf at hc; omega)
    simp only [withZero, hn, h48]
    rw [if_pos ⟨hdigit.2 hc, hvalid⟩, if_pos hc]
  · rw [if_neg fun hboth => hc (hdigit.1 hboth.1), if_neg hc]

theorem localize_withZero (h : s.Admits zero) (text : List Char) :
    (s.withZero zero).localize text = (s.localize text).map (transliterate zero) := by
  rw [localize, localize, List.map_map]
  exact List.map_congr_left fun c _ => localizeChar_withZero h c

end Symbols

/-- The short form of a text in other digits. -/
theorem abbreviate_map_transliterate (zero : Char) (text : List Char) :
    abbreviate (text.map (transliterate zero)) = (abbreviate text).map (transliterate zero) := by
  have hdot : transliterate zero '.' = '.' := transliterate_of_not_ascii (by decide)
  rw [abbreviate, abbreviate, List.length_map]
  split
  · rw [List.map_append, List.map_take]
    simp [hdot]
  · rfl

end DateTimeText
