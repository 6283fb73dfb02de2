import DateTimeText.DateTime
import DateTimeText.Proofs.Node.Numeral

/-!
# The shape of the text of an instant

A year with or without a sign, a month, a day and a time of day, whether or not they exist. The
second may be left out, and so may its fraction. A text has one such shape at most if the digits are
told apart from what stands between them.
-/

namespace DateTimeText

/-- A row of digits, at least `least` and at most `most` of them. -/
@[ext]
structure Digits (least most : Nat) where
  values : List Nat
  lt_ten : ∀ d ∈ values, d < 10
  le_length : least ≤ values.length
  length_le : values.length ≤ most

namespace Digits

variable {least most : Nat}

def number (ds : Digits least most) : Nat :=
  ofDigits ds.values

def chars (s : Symbols) (ds : Digits least most) : List Char :=
  ds.values.map s.digitChar

end Digits

namespace Symbols

variable {s : Symbols}

/-- Digits in front of characters that are none are told apart from what follows them. -/
theorem map_digitChar_append_inj (hs : s.Legible) {ds es : List Nat} (hds : ∀ d ∈ ds, d < 10)
    (hes : ∀ e ∈ es, e < 10) {text text' : List Char} (htext : s.EndsDigits text)
    (htext' : s.EndsDigits text')
    (h : ds.map s.digitChar ++ text = es.map s.digitChar ++ text') : ds = es ∧ text = text' := by
  -- The row is what is read of the digits up to any limit that is not below its length.
  have hrow : ∀ {row : List Nat} {rest : List Char}, (∀ d ∈ row, d < 10) → s.EndsDigits rest →
      ∀ more, s.digitRun (row.length + more) (row.map s.digitChar ++ rest) = row := by
    intro row rest hlt hends more
    rw [digitRun_append hs hlt, digitRun_of_endsDigits hends, List.append_nil]
  have hds' := hrow hds htext es.length
  have hes' := hrow hes htext' ds.length
  rw [h, Nat.add_comm, hes'] at hds'
  subst hds'
  exact ⟨rfl, List.append_cancel_left h⟩

/-- Symbols whose digits and separator are told apart from what stands between the digits of an
instant. -/
structure Apart (s : Symbols) : Prop extends s.Legible where
  digit?_dash : s.digit? '-' = none
  digit?_zone : ∀ c ∈ ['Z', 'z'], s.digit? c = none
  decimal_notMem : s.decimal ∉ ['Z', 'z']

theorem standard_apart : standard.Apart where
  toLegible := standard_legible
  digit?_dash := rfl
  digit?_zone := List.forall_mem_cons.2 ⟨rfl, List.forall_mem_singleton.2 rfl⟩
  decimal_notMem := by decide

end Symbols

namespace Digits

variable {s : Symbols} {least most : Nat}

/-- Rows of one width are told apart from whatever follows them. -/
theorem chars_append_inj (hs : s.Legible) {width : Nat} {ds es : Digits width width}
    {rest rest' : List Char} (h : ds.chars s ++ rest = es.chars s ++ rest') :
    ds = es ∧ rest = rest' := by
  have hlen : (ds.chars s).length = (es.chars s).length := by
    have hds := Nat.le_antisymm ds.length_le ds.le_length
    have hes := Nat.le_antisymm es.length_le es.le_length
    rw [chars, chars, List.length_map, List.length_map, hds, hes]
  obtain ⟨hrow, hrest⟩ := List.append_inj h hlen
  exact ⟨Digits.ext (Symbols.map_digitChar_inj hs ds.lt_ten es.lt_ten hrow), hrest⟩

/-- Rows of any width are told apart from a text that does not go on with a digit. -/
theorem chars_append_inj_of_endsDigits (hs : s.Legible) {ds es : Digits least most}
    {rest rest' : List Char} (hrest : s.EndsDigits rest) (hrest' : s.EndsDigits rest')
    (h : ds.chars s ++ rest = es.chars s ++ rest') : ds = es ∧ rest = rest' := by
  obtain ⟨hrow, htext⟩ := Symbols.map_digitChar_append_inj hs ds.lt_ten es.lt_ten hrest hrest' h
  exact ⟨Digits.ext hrow, htext⟩

theorem isSome_digit?_head (hs : s.Legible) (hleast : 0 < least) (ds : Digits least most)
    (rest : List Char) : ∀ c ∈ (ds.chars s ++ rest).head?, s.digit? c ≠ none := by
  obtain ⟨_ | ⟨d, values⟩, hlt, hle, -⟩ := ds
  · exact absurd hleast (Nat.not_lt.2 hle)
  · rintro c ⟨⟩
    rw [Symbols.digit?_digitChar hs (hlt d List.mem_cons_self)]
    exact nofun

end Digits

namespace Numeral

variable {s : Symbols}

theorem digit?_signChar (hs : s.Legible) (sign : Sign) : s.digit? (sign.char s) = none := by
  cases sign with
  | positive => exact hs.digit?_positive
  | negative => exact hs.digit?_negative

/-- A sign in front of a digit is told apart from no sign and from the other one. -/
theorem sign_append_inj (hs : s.Legible) {sign sign' : Option Sign} {text text' : List Char}
    (htext : ∀ c ∈ text.head?, s.digit? c ≠ none) (htext' : ∀ c ∈ text'.head?, s.digit? c ≠ none)
    (h : (sign.map (Sign.char s)).toList ++ text = (sign'.map (Sign.char s)).toList ++ text') :
    sign = sign' ∧ text = text' := by
  cases sign with
  | none =>
      cases sign' with
      | none => exact ⟨rfl, h⟩
      | some sign' =>
          have hhead : text.head? = some (sign'.char s) := congrArg List.head? h
          exact absurd (digit?_signChar hs sign') (htext _ hhead)
  | some sign =>
      cases sign' with
      | none =>
          have hhead : text'.head? = some (sign.char s) := (congrArg List.head? h).symm
          exact absurd (digit?_signChar hs sign) (htext' _ hhead)
      | some sign' =>
          obtain ⟨hsign, hrest⟩ := List.cons.inj h
          refine ⟨?_, hrest⟩
          cases sign <;> cases sign'
          · rfl
          · exact absurd hsign hs.positive_ne_negative
          · exact absurd hsign.symm hs.positive_ne_negative
          · rfl

end Numeral

namespace Instant

/-- The parts of the text of an instant. -/
structure Shape where
  sign : Option Numeral.Sign
  year : Digits 4 10
  month : Digits 2 2
  day : Digits 2 2
  separator : Char
  hour : Digits 2 2
  minute : Digits 2 2
  /-- The second with its fraction, if there are any. -/
  second : Option (Digits 2 2 × Option (Digits 0 9))
  zone : Char
  separator_eq : separator = 'T' ∨ separator = 't'
  zone_eq : zone = 'Z' ∨ zone = 'z'

namespace Shape

def fractionChars (s : Symbols) : Option (Digits 0 9) → List Char
  | none => []
  | some digits => s.decimal :: digits.chars s

def secondChars (s : Symbols) : Option (Digits 2 2 × Option (Digits 0 9)) → List Char
  | none => []
  | some (second, fraction) => ':' :: second.chars s ++ fractionChars s fraction

/-- The text of a shape. -/
def chars (s : Symbols) (t : Shape) : List Char :=
  (t.sign.map (Numeral.Sign.char s)).toList ++ t.year.chars s ++ '-' :: t.month.chars s ++
    '-' :: t.day.chars s ++ t.separator :: t.hour.chars s ++ ':' :: t.minute.chars s ++
    secondChars s t.second ++ [t.zone]

def fractionNano : Option (Digits 0 9) → Nat
  | none => 0
  | some digits => digits.number * tenPow (9 - digits.values.length)

/-- The nanosecond that the fraction of the second makes, which is zero without one. -/
def nano (t : Shape) : Nat :=
  fractionNano (t.second.bind Prod.snd)

/-- The date and time of day that a shape says, which need not exist. -/
def dateTime (t : Shape) : DateTime where
  date.year := if t.sign = some .negative then -t.year.number else t.year.number
  date.month := t.month.number
  date.day := t.day.number
  time.hour := t.hour.number
  time.minute := t.minute.number
  time.second := (t.second.map fun second => second.1.number).getD 0
  time.nano := t.nano

theorem fractionNano_lt (fraction : Option (Digits 0 9)) : fractionNano fraction < 1000000000 := by
  cases fraction with
  | none => decide
  | some digits =>
      have hnumber : digits.number < tenPow digits.values.length := ofDigits_lt digits.lt_ten
      rw [fractionNano, ← tenPow_nine_sub_mul digits.length_le, Nat.mul_comm (tenPow _)]
      exact Nat.mul_lt_mul_of_pos_right hnumber (tenPow_pos _)

variable {s : Symbols}

theorem fractionChars_append_inj (hs : s.Apart) {fraction fraction' : Option (Digits 0 9)}
    {zone zone' : Char} (hzone : zone ∈ ['Z', 'z']) (hzone' : zone' ∈ ['Z', 'z'])
    {rest rest' : List Char}
    (h : fractionChars s fraction ++ zone :: rest = fractionChars s fraction' ++ zone' :: rest') :
    fraction = fraction' ∧ zone = zone' := by
  have hends : ∀ {c : Char} {more : List Char}, c ∈ ['Z', 'z'] → s.EndsDigits (c :: more) := by
    rintro c more hc _ ⟨⟩
    exact hs.digit?_zone c hc
  cases fraction with
  | none =>
      cases fraction' with
      | none => exact ⟨rfl, (List.cons.inj h).1⟩
      | some digits' =>
          obtain ⟨rfl, -⟩ := List.cons.inj h
          exact absurd hzone hs.decimal_notMem
  | some digits =>
      cases fraction' with
      | none =>
          obtain ⟨rfl, -⟩ := List.cons.inj h
          exact absurd hzone' hs.decimal_notMem
      | some digits' =>
          obtain ⟨rfl, hrest⟩ := Digits.chars_append_inj_of_endsDigits hs.toLegible
            (hends hzone) (hends hzone') (List.cons.inj h).2
          exact ⟨rfl, (List.cons.inj hrest).1⟩

theorem secondChars_append_inj (hs : s.Apart)
    {second second' : Option (Digits 2 2 × Option (Digits 0 9))} {zone zone' : Char}
    (hzone : zone ∈ ['Z', 'z']) (hzone' : zone' ∈ ['Z', 'z']) {rest rest' : List Char}
    (h : secondChars s second ++ zone :: rest = secondChars s second' ++ zone' :: rest') :
    second = second' ∧ zone = zone' := by
  have hcolon : ':' ∉ ['Z', 'z'] := by decide
  cases second with
  | none =>
      cases second' with
      | none => exact ⟨rfl, (List.cons.inj h).1⟩
      | some second' =>
          obtain ⟨rfl, -⟩ := List.cons.inj h
          exact absurd hzone hcolon
  | some second =>
      cases second' with
      | none =>
          obtain ⟨rfl, -⟩ := List.cons.inj h
          exact absurd hzone' hcolon
      | some second' =>
          simp only [secondChars, List.cons_append, List.append_assoc] at h
          obtain ⟨hdigits, hrest⟩ := Digits.chars_append_inj hs.toLegible (List.cons.inj h).2
          obtain ⟨hfraction, hletter⟩ := fractionChars_append_inj hs hzone hzone' hrest
          exact ⟨congrArg some (Prod.ext hdigits hfraction), hletter⟩

theorem zone_mem (t : Shape) : t.zone ∈ ['Z', 'z'] := by
  simpa using t.zone_eq

/-- A text starts with one shape at most. -/
theorem chars_append_inj (hs : s.Apart) {t t' : Shape} {rest rest' : List Char}
    (h : t.chars s ++ rest = t'.chars s ++ rest') : t = t' := by
  have hdash : ∀ more, s.EndsDigits ('-' :: more) := by
    rintro more _ ⟨⟩
    exact hs.digit?_dash
  simp only [chars, List.append_assoc, List.cons_append, List.nil_append] at h
  obtain ⟨hsign, h⟩ := Numeral.sign_append_inj hs.toLegible
    (Digits.isSome_digit?_head hs.toLegible (by decide) t.year _)
    (Digits.isSome_digit?_head hs.toLegible (by decide) t'.year _) h
  obtain ⟨hyear, h⟩ := Digits.chars_append_inj_of_endsDigits hs.toLegible (hdash _) (hdash _) h
  obtain ⟨hmonth, h⟩ := Digits.chars_append_inj hs.toLegible (List.cons.inj h).2
  obtain ⟨hday, h⟩ := Digits.chars_append_inj hs.toLegible (List.cons.inj h).2
  obtain ⟨hseparator, h⟩ := List.cons.inj h
  obtain ⟨hhour, h⟩ := Digits.chars_append_inj hs.toLegible h
  obtain ⟨hminute, h⟩ := Digits.chars_append_inj hs.toLegible (List.cons.inj h).2
  obtain ⟨hsecond, hzone⟩ := secondChars_append_inj hs t.zone_mem t'.zone_mem h
  cases t
  cases t'
  simp_all

end Shape

end Instant

end DateTimeText
