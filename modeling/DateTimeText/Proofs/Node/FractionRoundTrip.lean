import DateTimeText.Proofs.Node.Fraction
import DateTimeText.Proofs.Node.LeafReading
import DateTimeText.Proofs.Node.Rendering

/-!
# Fractions read back

What is written of a fraction and read back is cut off twice. The two cuts give the value itself
where its fraction has no more digits than are written, and of at most a billion values the one
before it elsewhere. The parts of a second have a digit of their own for each digit of the fraction,
and lose only those that are not written.
-/

namespace DateTimeText

/-- The digits of a value that counts parts of a second. -/
def Field.secondDigits? : Field → Option Nat
  | nanoOfSecond => some 9
  | microOfSecond => some 6
  | milliOfSecond => some 3
  | _ => none

theorem Field.of_secondDigits? {f : Field} {k : Nat} (hf : f.secondDigits? = some k) :
    f.range.min = 0 ∧ f.range.span = tenPow k ∧ 0 < k ∧ k ≤ 9 := by
  cases f with
  | nanoOfSecond | microOfSecond | milliOfSecond =>
      cases hf
      decide
  | _ => cases hf

/-- A number of `width` digits with zeros in place of those behind the first `count`. -/
def cutDigits (width count n : Nat) : Nat :=
  ofDigits ((paddedDigits width n).take count ++ List.replicate (width - count) 0)

theorem cutDigits_eq {width count n : Nat} (hwidth : 0 < width) (hcount : 0 < count)
    (hn : n < tenPow width) :
    cutDigits width count n = n / tenPow (width - count) * tenPow (width - count) := by
  have hzeros : ofDigits (List.replicate (width - count) 0) = 0 := by
    simpa using ofDigits_replicate_zero_append (width - count) []
  have htake : ofDigits ((paddedDigits width n).take count) = n / tenPow (width - count) := by
    rcases Nat.le_total width count with hle | hle
    · have hlen := length_paddedDigits_of_lt hwidth hn
      rw [List.take_of_length_le (hlen.trans_le hle), Nat.sub_eq_zero_of_le hle,
        ofDigits_paddedDigits]
      exact (Nat.div_one n).symm
    · obtain ⟨last, rfl⟩ := Nat.exists_eq_add_of_le hle
      rw [paddedDigits_eq_map, ← List.map_take, take_zeroPadded hcount hn, ← paddedDigits_eq_map,
        ofDigits_paddedDigits, Nat.add_sub_cancel_left]
  rw [cutDigits, ofDigits_append, hzeros, htake, List.length_replicate, Nat.add_zero]

theorem cutDigits_of_le {width count n : Nat} (hle : width ≤ count) (hwidth : 0 < width)
    (hn : n < tenPow width) : cutDigits width count n = n := by
  rw [cutDigits_eq hwidth (Nat.lt_of_lt_of_le hwidth hle) hn, Nat.sub_eq_zero_of_le hle, tenPow,
    Nat.div_one, Nat.mul_one]

namespace Fraction

/-- Parts of a second have nine digits less some of their own. The first `k` digits of the fraction
are theirs, with zeros behind. -/
theorem div_mul_div_tenPow {j k : Nat} (hj : j ≤ 9) (hk : k ≤ 9) (u : Nat) :
    u * tenPow 9 / tenPow j / tenPow (9 - k) * tenPow j / tenPow k =
      u / tenPow (j - k) * tenPow (j - k) := by
  have hnine : u * tenPow 9 / tenPow j = u * tenPow (9 - j) := mul_div_tenPow hj u
  rw [hnine]
  rcases Nat.le_total k j with hle | hle
  · -- Digits of the value are cut off, behind the zeros that fill it up to nine.
    have hcut : 9 - k = (j - k) + (9 - j) := by omega
    have hown : tenPow j = tenPow (j - k) * tenPow k := by
      rw [← tenPow_add, Nat.sub_add_cancel hle]
    rw [hcut, tenPow_add, Nat.mul_div_mul_right _ _ (tenPow_pos _), hown, ← Nat.mul_assoc,
      Nat.mul_div_cancel _ (tenPow_pos k)]
  · -- All digits of the value are kept.
    have hfill : 9 - j = (k - j) + (9 - k) := by omega
    have hall : tenPow k = tenPow (k - j) * tenPow j := by
      rw [← tenPow_add, Nat.sub_add_cancel hle]
    rw [hfill, tenPow_add, ← Nat.mul_assoc, Nat.mul_div_cancel _ (tenPow_pos _), Nat.mul_assoc,
      ← hall, Nat.mul_div_cancel _ (tenPow_pos k), Nat.sub_eq_zero_of_le hle, tenPow, Nat.div_one,
      Nat.mul_one]

/-- Nothing is cut off a value if the digits of its fraction behind the first `k` are zeros. -/
theorem tenPow_dvd_of_second_parts {j k u : Nat} (hj : j ≤ 9)
    (hdvd : tenPow (9 - k) ∣ u * tenPow 9 / tenPow j) : tenPow (j - k) ∣ u := by
  have hnine : u * tenPow 9 / tenPow j = u * tenPow (9 - j) := mul_div_tenPow hj u
  rcases Nat.le_total k j with hle | hle
  · have hcut : 9 - k = (j - k) + (9 - j) := by omega
    rw [hnine, hcut, tenPow_add] at hdvd
    exact Nat.dvd_of_mul_dvd_mul_right (tenPow_pos _) hdvd
  · rw [Nat.sub_eq_zero_of_le hle]
    exact Nat.one_dvd u

/-- The digits that are written of parts of a second are those that their widths admit. -/
theorem div_mul_div_eq_cutDigits {n : Fraction} (hn : n.WellSized) {j u parts : Nat} (hpos : 0 < j)
    (hj : j ≤ 9) {r : ValueRange} {x : Int} (hx : Portion r x u (tenPow j) parts) :
    parts / tenPow (9 - n.scale parts) * tenPow j / tenPow (n.scale parts) =
      cutDigits j n.maxWidth u := by
  have hle := scale_le hn parts
  have hcut := tenPow_dvd_or_scale_eq hn hx.parts_lt
  generalize n.scale parts = k at hle hcut ⊢
  rw [← hx.parts_eq, div_mul_div_tenPow hj (hle.trans hn.maxWidth_le),
    cutDigits_eq hpos hn.one_le_maxWidth hx.lt]
  rcases hcut with hdvd | hmax
  · -- All that is cut off are zeros, and even more of them are where the width ends.
    rw [← hx.parts_eq] at hdvd
    have hown := tenPow_dvd_of_second_parts hj hdvd
    have hmore : tenPow (j - n.maxWidth) ∣ tenPow (j - k) := by
      have hsplit : j - k = (j - n.maxWidth) + (j - k - (j - n.maxWidth)) := by omega
      rw [hsplit, tenPow_add]
      exact Nat.dvd_mul_right _ _
    rw [Nat.div_mul_cancel hown, Nat.div_mul_cancel (Nat.dvd_trans hmore hown)]
  · rw [hmax]

end Fraction

namespace Node

/-- In strict mode a node takes a text for a value of a field, in any context that has no other
value of it, in front of a text that does not go on with a digit. -/
def StoresApart (s : Settings) (node : Node) (taken : List Char) (f : Field) (x : Int) : Prop :=
  ∀ c : Context, c.mode.strict = true → (∀ old ∈ c.current.field f, old = x) →
    ∀ rest, s.symbols.EndsDigits rest →
      node.parse s c (taken ++ rest) = ({ c with current := c.current.set f x }, .ok rest)

variable {n : Fraction} {s : Settings} {x : Int}

theorem prints_written (hs : s.symbols.Legible) (hn : n.WellSized) {u D parts : Nat}
    (hx : Fraction.Portion n.field.range x u D parts) :
    Prints s (leaf (.fraction n)) n.field x (n.written s.symbols parts) := by
  refine prints_of_render fun v hv => ?_
  rw [Leaf.render, hv, Leaf.renderField, Fraction.render_eq hs hn hx]

/-- The text of a value, and what its digits say of the range. -/
theorem parse_print_written (hn : n.WellSized) (hmin : 1 ≤ n.minWidth) (hs : s.symbols.Legible)
    {u D parts : Nat} (hx : Fraction.Portion n.field.range x u D parts) :
    n.scale parts ≠ 0 ∧
      ∃ text, Prints s (leaf (.fraction n)) n.field x text ∧
        StoresApart s (leaf (.fraction n)) text n.field
          (Fraction.valueOf n.field.range (n.digits parts)) := by
  have hscale : n.scale parts ≠ 0 :=
    Nat.pos_iff_ne_zero.1 (hmin.trans (Fraction.le_scale hn parts))
  refine ⟨hscale, _, prints_written hs hn hx, fun c hstrict hc rest hrest => ?_⟩
  obtain ⟨body, hread⟩ := Fraction.read_written_append hs hn hx.parts_lt hscale true hrest
  rw [parse_leaf, Leaf.read, hstrict, hread]
  exact Context.storeResult_value hc _ rest

variable {f : Field} {minWidth maxWidth : Nat} {decimalPoint : Bool}

/-- Of at most a billion values, one that is written with all nine digits of its fraction but the
zeros at their end is stored again if the fraction has no more digits, and else the value before it
is. -/
theorem parse_print_fraction (hn : Fraction.of f minWidth 9 decimalPoint = .ok n)
    (hmin : 1 ≤ minWidth) (hspan : f.range.span ≤ 1000000000) (hs : s.symbols.Legible)
    (hx : x ∈ f.range) :
    ∃ text, Prints s (leaf (.fraction n)) f x text ∧
      StoresApart s (leaf (.fraction n)) text f
        (if f.range.span ∣ (x - f.range.min) * 1000000000 then x else x - 1) := by
  obtain ⟨rfl, hsized⟩ := Fraction.of_eq_ok hn
  obtain ⟨u, D, parts, hportion⟩ := Fraction.exists_portion hx
  obtain ⟨hscale, text, hprints, hstores⟩ := parse_print_written hsized hmin hs hportion
  have hD : D ≤ tenPow 9 := Int.ofNat_le.1 (hportion.span_eq ▸ hspan)
  have hoffset : x - f.range.min = u := by
    have := hportion.value_eq
    omega
  have hwhole : f.range.span ∣ (x - f.range.min) * 1000000000 ↔ D ∣ u * tenPow 9 := by
    rw [hportion.span_eq, hoffset]
    exact Int.natCast_dvd_natCast
  rw [Fraction.valueOf_nine_digits hsized rfl hportion hD hscale] at hstores
  simp only [hwhole]
  exact ⟨text, hprints, hstores⟩

/-- Fifteen seconds are a quarter of a minute and are stored again; twenty are a third of it. -/
theorem parse_print_fraction_quarter :
    let n : Fraction := ⟨.secondOfMinute, 1, 9, true⟩
    (Fraction.of .secondOfMinute 1 9 true = .ok n ∧ 1 ≤ 1 ∧
        Field.secondOfMinute.range.span ≤ 1000000000 ∧ Settings.root.symbols.Legible ∧
        (15 : Int) ∈ Field.secondOfMinute.range) ∧
      ∃ text, Prints .root (leaf (.fraction n)) .secondOfMinute 15 text ∧
        StoresApart .root (leaf (.fraction n)) text .secondOfMinute 15 := by
  intro n
  have hn : Fraction.of .secondOfMinute 1 9 true = .ok n := rfl
  have hspan : Field.secondOfMinute.range.span ≤ 1000000000 := by decide
  have hs : Settings.root.symbols.Legible := Symbols.standard_legible
  have hx : (15 : Int) ∈ Field.secondOfMinute.range := by decide
  exact ⟨⟨hn, by decide, hspan, hs, hx⟩, parse_print_fraction hn (by decide) hspan hs hx⟩

/-- A third of a minute has no end of digits, and nine of them are stored as the second before. -/
theorem twenty_seconds_stored_as_nineteen :
    let n : Fraction := ⟨.secondOfMinute, 1, 9, true⟩
    let c : Context := ⟨Mode.initial, .empty, []⟩
    let text := '.' :: List.replicate 9 '3'
    Fraction.of .secondOfMinute 1 9 true = .ok n ∧ (20 : Int) ∈ Field.secondOfMinute.range ∧
      (leaf (.fraction n)).print .root (Components.empty.set .secondOfMinute 20) [] =
        (text, .ok true) ∧
      c.mode.strict = true ∧
      (leaf (.fraction n)).parse .root c text =
        ({ c with current := Components.empty.set .secondOfMinute 19 }, .ok []) :=
  ⟨rfl, by decide, rfl, rfl, rfl⟩

/-- A value that counts parts of a second is stored again with zeros in place of the digits that are
too many to be written, and so without a change if all of them may be written. -/
theorem parse_print_second_parts {digits : Nat} (hf : f.secondDigits? = some digits)
    (hn : Fraction.of f minWidth maxWidth decimalPoint = .ok n) (hmin : 1 ≤ minWidth)
    (hs : s.symbols.Legible) (hx : x ∈ f.range) :
    (∃ text, Prints s (leaf (.fraction n)) f x text ∧
      StoresApart s (leaf (.fraction n)) text f (cutDigits digits maxWidth x.toNat)) ∧
      (digits ≤ maxWidth → cutDigits digits maxWidth x.toNat = x) := by
  obtain ⟨rfl, hsized⟩ := Fraction.of_eq_ok hn
  obtain ⟨hzero, hspan, hpos, hnine⟩ := Field.of_secondDigits? hf
  obtain ⟨u, D, parts, hportion⟩ := Fraction.exists_portion hx
  obtain ⟨hscale, text, hprints, hstores⟩ := parse_print_written hsized hmin hs hportion
  obtain rfl : D = tenPow digits := Int.ofNat_inj.1 (hportion.span_eq.symm.trans hspan)
  obtain rfl : x = u := by
    rw [hportion.value_eq, hzero, Int.zero_add]
  rw [Fraction.valueOf_digits hsized hportion hscale, hzero, Int.zero_add,
    Fraction.div_mul_div_eq_cutDigits hsized hpos hnine hportion] at hstores
  rw [Int.toNat_natCast]
  refine ⟨⟨text, hprints, hstores⟩, fun hall => ?_⟩
  rw [cutDigits_of_le hall hpos hportion.lt]

/-- Of the microseconds of a second four digits are written, and two zeros stored behind them. -/
theorem parse_print_second_parts_micro :
    let n : Fraction := ⟨.microOfSecond, 2, 4, false⟩
    (Field.microOfSecond.secondDigits? = some 6 ∧ Fraction.of .microOfSecond 2 4 false = .ok n ∧
        1 ≤ 2 ∧ Settings.root.symbols.Legible ∧ (123456 : Int) ∈ Field.microOfSecond.range) ∧
      ∃ text, Prints .root (leaf (.fraction n)) .microOfSecond 123456 text ∧
        StoresApart .root (leaf (.fraction n)) text .microOfSecond 123400 := by
  intro n
  have hf : Field.microOfSecond.secondDigits? = some 6 := rfl
  have hn : Fraction.of .microOfSecond 2 4 false = .ok n := rfl
  have hs : Settings.root.symbols.Legible := Symbols.standard_legible
  have hx : (123456 : Int) ∈ Field.microOfSecond.range := by decide
  exact ⟨⟨hf, hn, by decide, hs, hx⟩, (parse_print_second_parts hf hn (by decide) hs hx).1⟩

end Node

end DateTimeText
