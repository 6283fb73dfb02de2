import DateTimeText.Proofs.Formatter.Reading
import DateTimeText.Proofs.Formatter.Writing
import DateTimeText.Proofs.Node.Padding

/-!
# Numbers padded with zeros

A pad of zeros takes every zero that stands in front, also those of the number. What is left of a
positive number are its digits, so the number is read back. Of zero nothing is left.
-/

namespace DateTimeText

namespace Node

variable {s : Settings} {f : Field}

/-- The number of a field without a width. -/
theorem prints_value (hs : s.symbols = .standard) {n : Nat} (hn : n < tenPow maxDigits) :
    Prints s (numeral (.plain f 1 maxDigits .normal)) f n (decimal n) := by
  refine prints_of_render fun v hv => ?_
  have hlength : (decimal n).length ≤ maxDigits := (length_decimal_le_iff (by decide)).2 hn
  have hnonneg : ¬ (n : Int) < 0 := by omega
  have hone : 1 - (decimal n).length = 0 := by
    have hpos := Nat.length_toDigits_pos (b := 10) (n := n)
    rw [decimal]
    omega
  have hrender : (Numeral.plain f 1 maxDigits .normal).render s.symbols n = .ok (decimal n) := by
    simp only [Numeral.render, Numeral.shown, Numeral.plain, Int.natAbs_natCast, hs, hone,
      Symbols.localize_standard_decimal, List.replicate_zero, List.nil_append,
      if_neg (Nat.not_lt.2 hlength), if_neg hnonneg]
  rw [Leaf.render, show v.field (Numeral.plain f 1 maxDigits .normal).field = some (n : Int) from hv,
    Leaf.renderField, hrender]

/-- Behind the zeros of the pad the digits of a positive number are left. -/
theorem parse_zeros_of_pos (hs : s.symbols = .standard) {width n : Nat} (hwidth : 0 < width)
    (hn : 0 < n) (hlt : n < tenPow width) (hfits : FitsInt64 n) (rest : List Char) :
    (pad (numeral (.plain f 1 maxDigits .normal)) width '0').parse s .initial
        (zeroPadded width n ++ rest) =
      ({ Context.initial with current := Components.empty.set f n }, .ok rest) := by
  have hlegible : s.symbols.Legible := hs ▸ Symbols.standard_legible
  have hmax : n < tenPow maxDigits := by
    have hle := hfits.2
    simp only [maxDigits, tenPow, int64Max] at hle ⊢
    omega
  have hsized : (Numeral.plain f 1 maxDigits .normal).WellSized :=
    ⟨Nat.le_refl 1, show 1 ≤ maxDigits by decide, Nat.le_refl maxDigits⟩
  refine parse_pad_numeral hlegible hsized rfl (.plain hfits (by decide))
    (render_of_prints (prints_value hs hmax)) hwidth ((length_decimal_le_iff hwidth).2 hlt) rfl
    (fun a ha => ?_) (by rintro _ ⟨⟩) rest
  exact beq_eq_false_iff_ne.2 (ne_zero_of_mem_head?_decimal hn a ha)

/-- Of zero nothing is left behind the zeros of the pad. -/
theorem parse_zeros_of_zero (s : Settings) (f : Field) {width : Nat} (hwidth : 0 < width)
    (rest : List Char) :
    (pad (numeral (.plain f 1 maxDigits .normal)) width '0').parse s .initial
        (zeroPadded width 0 ++ rest) = (.initial, .error rest) := by
  have hlength : (zeroPadded width 0).length = width :=
    length_zeroPadded_of_lt hwidth (tenPow_pos width)
  have hbody : Context.initial.mode.dropFill '0' (zeroPadded width 0 ++ []) = [] := by
    rw [zeroPadded_zero hwidth]
    exact Mode.dropFill_replicate_append (by rintro _ ⟨⟩) width
  rw [List.append_nil] at hbody
  rw [parse_pad hlength hwidth, hbody]
  rfl

end Node

/-- The steps for a number with a pad of zeros make a formatter of one padded node. -/
theorem Builder.steps_pad_value (f : Field) {width : Nat} (hwidth : 0 < width) (fill : Char) :
    ∃ b, Builder.new.steps [.pad width fill, .value f] = .ok b ∧
      b.nodes = [.pad (.numeral (.plain f 1 maxDigits .normal)) width fill] := by
  have hpad : Builder.new.step (.pad width fill) =
      .ok (Builder.new.mapActive fun sc => ⟨sc.nodes, none, some (width, fill)⟩) :=
    if_neg (Nat.not_lt.2 hwidth)
  rw [steps, List.foldlM_cons, hpad]
  exact ⟨_, rfl, rfl⟩

namespace Formatter

/-- A number that is padded with zeros is written with as many digits as the pad has. It is read
back if it is not zero, and passes the check of its range if it lies there. Zero is not read: the
pad takes all zeros, and then there are no digits. -/
theorem parse_format_zero_padded (f : Field) {width : Nat} (hwidth : 1 ≤ width)
    (hmax : width ≤ 19) :
    ∃ b, Builder.new.steps [.pad width '0', .value f] = .ok b ∧
      ∀ x : Int, 0 ≤ x → x < tenPow width → FitsInt64 x →
        let digits := zeroPadded width x.toNat
        digits.length = width ∧
          (∀ v : Components, v.field f = some x → b.toFormatter.format v = .ok digits) ∧
          (x ≠ 0 →
            b.toFormatter.parseAt digits ⟨0, none⟩ =
                (some (Components.empty.set f x), ⟨byteLength digits, none⟩) ∧
              (b.toFormatter.parse digits = .ok (Components.empty.set f x) ↔ x ∈ f.range)) ∧
          (x = 0 → b.toFormatter.parse digits =
            .error (.mismatch (String.ofList (abbreviate digits)) width)) := by
  obtain ⟨b, hb, hnodes⟩ := Builder.steps_pad_value f hwidth '0'
  have hformatter : b.toFormatter =
      ⟨[.pad (.numeral (.plain f 1 maxDigits .normal)) width '0'], .root⟩ := by
    rw [Builder.toFormatter, Builder.toFormatterWithLocale, hnodes]
    rfl
  refine ⟨b, hb, ?_⟩
  rw [hformatter]
  rintro x hx hlt hfits digits
  obtain ⟨n, rfl⟩ := Int.eq_ofNat_of_zero_le hx
  have hn : n < tenPow width := by omega
  have hlength : digits.length = width := length_zeroPadded_of_lt hwidth hn
  refine ⟨hlength, fun v hv => ?_, fun hne => ?_, fun hzero => ?_⟩
  · have hmaxDigits : n < tenPow maxDigits := Nat.lt_of_lt_of_le hn (tenPow_le_tenPow hmax)
    have hprints := (Node.prints_value (f := f) (s := .root) rfl hmaxDigits).pad
      ((length_decimal_le_iff hwidth).2 hn) '0'
    exact format_node (hprints.render hv)
  · have hread := Node.parse_zeros_of_pos (f := f) (s := .root) rfl hwidth (by omega) hn hfits []
    rw [List.append_nil] at hread
    have hstart := parseStart_node_of_ok hread
    have hat := @parseAt_of_parseAllWith
      ⟨[.pad (.numeral (.plain f 1 maxDigits .normal)) width '0'], .root⟩ _ _
      ((Node.parseAllWith_singleton _ _ _).trans hread) none
    refine ⟨hat, ?_, fun hrange => ?_⟩
    · intro hparse
      have hchecked := (parse_eq_ok_iff.1 hparse).2
      exact Components.checkRanges_eq_ok_iff.1 hchecked f n (by simp)
    · exact parse_of_parseStart hstart
        (Components.checkRanges_set (Components.checkRanges_empty _) hrange)
  · obtain rfl : n = 0 := by omega
    have hstart := parseStart_node_of_error (Node.parse_zeros_of_zero .root f hwidth [])
    rw [List.append_nil] at hstart
    change parse _ (zeroPadded width 0) = .error (.mismatch _ width)
    rw [parse, hstart]
    change Except.error (ParseError.mismatch _ (digits.length - 0)) = _
    rw [hlength, Nat.sub_zero]
    rfl

/-- The value 700 comes back from six digits, of which the last two are zeros of its own. -/
theorem parse_format_zero_padded_700 :
    ∃ b, Builder.new.steps [.pad 6 '0', .value .year] = .ok b ∧
      ((1 ≤ 6 ∧ 6 ≤ 19) ∧ (700 : Int) < tenPow 6 ∧ FitsInt64 700 ∧ 700 ∈ Field.year.range) ∧
      zeroPadded 6 700 = ['0', '0', '0', '7', '0', '0'] ∧
      b.toFormatter.format (Components.empty.set .year 700) = .ok (zeroPadded 6 700) ∧
      b.toFormatter.parse (zeroPadded 6 700) = .ok (Components.empty.set .year 700) := by
  obtain ⟨b, hb, hall⟩ := parse_format_zero_padded .year (show 1 ≤ 6 by decide) (by decide)
  obtain ⟨-, hformat, hread, -⟩ := hall 700 (by decide) (by decide) (by decide)
  exact ⟨b, hb, by decide, by decide, hformat _ rfl, (hread (by decide)).2.2 (by decide)⟩

/-- The hour 0 is written as two zeros, which the pad takes both. -/
theorem zeros_taken_by_pad :
    ∃ b, Builder.new.steps [.pad 2 '0', .value .hourOfDay] = .ok b ∧
      (0 : Int) < tenPow 2 ∧ 0 ∈ Field.hourOfDay.range ∧
      b.toFormatter.format (Components.empty.set .hourOfDay 0) = .ok ['0', '0'] ∧
      b.toFormatter.parse ['0', '0'] = .error (.mismatch "00" 2) :=
  ⟨_, rfl, by decide, by decide, rfl, rfl⟩

end Formatter

end DateTimeText
