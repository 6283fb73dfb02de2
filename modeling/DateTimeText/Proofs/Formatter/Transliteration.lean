import DateTimeText.Formatter.Iso
import DateTimeText.Proofs.Formatter.Reading
import DateTimeText.Proofs.Formatter.Writing
import DateTimeText.Proofs.Node.IsoParts
import DateTimeText.Proofs.Node.Transliteration

/-!
# Formatters with another zero digit

A formatter of numbers, fractions, literals and sections of them writes with another zero digit what
it writes with ASCII digits, digit by digit, and reads it back as the same components. Where it does
not read a text, it stops at the same character with the same error.
-/

namespace DateTimeText

/-- An error with its text in other digits. -/
def ParseError.transliterated (zero : Char) : ParseError → ParseError
  | invalidValue text cause =>
    invalidValue (String.ofList (text.toList.map (transliterate zero))) cause
  | unparsedText text index =>
    unparsedText (String.ofList (text.toList.map (transliterate zero))) index
  | mismatch text index => mismatch (String.ofList (text.toList.map (transliterate zero))) index

namespace Formatter

variable {f : Formatter} {s : Symbols} {zero : Char}

theorem isNumeric_root (hf : ∀ node ∈ f.nodes, node.IsNumeric zero) : f.root.IsNumeric zero :=
  .group false hf

theorem symbols_admits (hs : s.Admits zero) : (f.withSymbols s).settings.symbols.Admits zero :=
  hs

theorem symbols_withZero : (f.withSymbols (s.withZero zero)).settings.symbols =
    (f.withSymbols s).settings.symbols.withZero zero := rfl

theorem parseStart_transliterate (hs : s.Admits zero) (hf : ∀ node ∈ f.nodes, node.IsNumeric zero)
    {text : List Char} (htext : Spares zero text) :
    (f.withSymbols (s.withZero zero)).parseStart (text.map (transliterate zero)) =
      match (f.withSymbols s).parseStart text with
      | .ok (v, rest) => .ok (v, rest.map (transliterate zero))
      | .error stop => .error (stop.map (transliterate zero)) := by
  have hread : Mirrors zero (f.root.read (f.withSymbols s).settings .initial .empty text)
      (f.root.read (f.withSymbols (s.withZero zero)).settings .initial .empty
        (text.map (transliterate zero))) :=
    Node.readWith_transliterate (symbols_admits hs) symbols_withZero (isNumeric_root hf) .empty
      htext
  rw [parseStart_eq_read, parseStart_eq_read]
  change (f.root.read (f.withSymbols (s.withZero zero)).settings .initial .empty _).2 =
    match (f.root.read (f.withSymbols s).settings .initial .empty text).2 with
    | .ok (v, rest) => .ok (v, rest.map (transliterate zero))
    | .error stop => .error (stop.map (transliterate zero))
  generalize f.root.read (f.withSymbols s).settings .initial .empty text = r at hread ⊢
  generalize f.root.read _ .initial .empty (text.map (transliterate zero)) = r' at hread ⊢
  cases hread with
  | ok v hrest => rfl
  | error stop => rfl

/-- Another zero digit changes nothing but the digits of the texts: the same values are written or
not written, and a text that has none of these digits is read, once it is put into them, as the
same components or refused at the same character. -/
theorem format_parse_withZero (f : Formatter) {s : Symbols} {zero : Char} (hs : s.Admits zero)
    (hf : ∀ node ∈ f.nodes, node.IsNumeric zero) :
    (∀ v, (f.withSymbols (s.withZero zero)).format v =
      ((f.withSymbols s).format v).map (List.map (transliterate zero))) ∧
    ∀ text, Spares zero text →
      (f.withSymbols (s.withZero zero)).parse (text.map (transliterate zero)) =
        ((f.withSymbols s).parse text).mapError (ParseError.transliterated zero) := by
  refine ⟨?format, ?parse⟩
  case format =>
    intro v
    have hrender : (f.withSymbols (s.withZero zero)).root.render
        (f.withSymbols (s.withZero zero)).settings v =
          rendered zero ((f.withSymbols s).root.render (f.withSymbols s).settings v) :=
      Node.renderWith_transliterate (symbols_admits hs) symbols_withZero (isNumeric_root hf)
    rw [format_eq, format_eq, hrender]
    rcases (f.withSymbols s).root.render (f.withSymbols s).settings v with e | _ | text
    · rfl
    · rfl
    · rfl
  case parse =>
    intro text htext
    have hshort : String.ofList (abbreviate (text.map (transliterate zero))) =
        String.ofList ((String.ofList (abbreviate text)).toList.map (transliterate zero)) := by
      rw [abbreviate_map_transliterate, String.toList_ofList]
    rw [parse, parse, parseStart_transliterate hs hf htext, hshort, List.length_map]
    rcases (f.withSymbols s).parseStart text with stop | ⟨v, _ | ⟨c, rest⟩⟩
    · dsimp only
      rw [List.length_map]
      rfl
    · -- The ranges are those of the chronology, which no symbol changes.
      have hchronology : (f.withSymbols (s.withZero zero)).settings.parseChronology v =
          (f.withSymbols s).settings.parseChronology v := rfl
      simp only [List.map_nil, hchronology]
      rcases v.checkRanges ((f.withSymbols s).settings.parseChronology v) with e | _
      · rfl
      · rfl
    · simp only [List.map_cons, List.length_cons, List.length_map]
      rfl

/-- The ISO date and time of day with a blank between them. -/
def spacedDateTime : Formatter :=
  ofNodes (Iso.localDate ++ [Node.literal [' ']] ++ Iso.localTime)

/-- Five digits of two bytes and five of three, before the epoch and in an optional section, and a
text that is not read to its end. -/
theorem format_parse_withZero_two_and_three_bytes :
    Symbols.standard.Admits '\u07fb' ∧ (∀ node ∈ spacedDateTime.nodes, node.IsNumeric '\u07fb') ∧
    Spares '\u07fb' "-12345-06-07 18:09:30.25".toList ∧
    Spares '\u07fb' "-12345-06-07 18:09:3".toList ∧
    (spacedDateTime.withSymbols (Symbols.standard.withZero '\u07fb')).format
        ((Components.empty.withDate ⟨-12345, 6, 7⟩).withTime ⟨18, 9, 30, 250000000⟩) =
      .ok ("-12345-06-07 18:09:30.25".toList.map (transliterate '\u07fb')) ∧
    (spacedDateTime.withSymbols (Symbols.standard.withZero '\u07fb')).parse
        ("-12345-06-07 18:09:30.25".toList.map (transliterate '\u07fb')) =
      .ok ((Components.empty.withDate ⟨-12345, 6, 7⟩).withTime ⟨18, 9, 30, 250000000⟩) ∧
    (spacedDateTime.withSymbols (Symbols.standard.withZero '\u07fb')).parse
        ("-12345-06-07 18:09:3".toList.map (transliterate '\u07fb')) =
      .error (.unparsedText
        (String.ofList ("-12345-06-07 18:09:3".toList.map (transliterate '\u07fb'))) 18) := by
  have hs : Symbols.standard.Admits '\u07fb' := Symbols.standard_admits (by decide) (by decide)
  have hf : ∀ node ∈ spacedDateTime.nodes, node.IsNumeric '\u07fb' := by
    have hblank : ∀ c ∈ [' '], NoDigit '\u07fb' c := List.forall_mem_singleton.2 (by decide)
    have hdash : ∀ c ∈ ['-'], NoDigit '\u07fb' c := List.forall_mem_singleton.2 (by decide)
    have hcolon : ∀ c ∈ [':'], NoDigit '\u07fb' c := List.forall_mem_singleton.2 (by decide)
    have hfraction : Iso.secondFraction.IsNumeric '\u07fb' :=
      .group true (List.forall_mem_singleton.2 (.fraction _))
    have hseconds : Iso.seconds.IsNumeric '\u07fb' :=
      .group true (List.forall_mem_cons.2 ⟨.literal hcolon, List.forall_mem_cons.2
        ⟨.numeral _, List.forall_mem_singleton.2 hfraction⟩⟩)
    change ∀ node ∈ [_, _, _, _, _, _, _, _, _, _], _
    simp only [List.forall_mem_cons]
    exact ⟨.numeral _, .literal hdash, .numeral _, .literal hdash, .numeral _, .literal hblank,
      .numeral _, .literal hcolon, .numeral _, hseconds, by simp⟩
  have htext : Spares '\u07fb' "-12345-06-07 18:09:30.25".toList := by decide
  have hcut : Spares '\u07fb' "-12345-06-07 18:09:3".toList := by decide
  have hformat : (spacedDateTime.withSymbols .standard).format
      ((Components.empty.withDate ⟨-12345, 6, 7⟩).withTime ⟨18, 9, 30, 250000000⟩) =
        .ok "-12345-06-07 18:09:30.25".toList := by
    decide +kernel
  have hparse : (spacedDateTime.withSymbols .standard).parse "-12345-06-07 18:09:30.25".toList =
      .ok ((Components.empty.withDate ⟨-12345, 6, 7⟩).withTime ⟨18, 9, 30, 250000000⟩) := by
    decide +kernel
  have herror : (spacedDateTime.withSymbols .standard).parse "-12345-06-07 18:09:3".toList =
      .error (.unparsedText "-12345-06-07 18:09:3" 18) := by
    decide +kernel
  obtain ⟨hwrites, hreads⟩ := format_parse_withZero spacedDateTime hs hf
  refine ⟨hs, hf, htext, hcut, ?_, ?_, ?_⟩
  · rw [hwrites, hformat]
    rfl
  · rw [hreads _ htext, hparse]
    rfl
  · rw [hreads _ hcut, herror]
    rfl

end Formatter

end DateTimeText
