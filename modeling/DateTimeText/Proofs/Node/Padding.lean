import DateTimeText.Proofs.Node.Cursor
import DateTimeText.Proofs.Node.LeafReading
import DateTimeText.Proofs.Node.Rendering
import DateTimeText.Proofs.Text.Letters

/-!
# Padded nodes

In strict mode a padded node is read in a window of the text: it is read if all of the window behind
the pad is, and what follows the window has no part in it. So a number with a pad that is neither a
digit nor a sign is read back in front of any text, where without the pad it would take more digits.
-/

namespace DateTimeText

theorem Symbols.lt_of_digit?_standard {a : Char} (h : (standard.digit? a).isSome = true) :
    a.toNat < 'A'.toNat := by
  have hzero : standard.zero.toNat = 48 := rfl
  have hletter : 'A'.toNat = 65 := rfl
  unfold digit? at h
  split at h
  · omega
  · cases h

/-- A number starts with a digit or a sign. -/
theorem Numeral.head?_of_render {n : Numeral} {s : Symbols} (hs : s.Legible) {x : Int}
    {text : List Char} (h : n.render s x = .ok text) :
    ∀ a ∈ text.head?, (s.digit? a).isSome = true ∨ a = s.positive ∨ a = s.negative := by
  obtain ⟨-, -, rfl⟩ := Numeral.render_of_ok hs h
  have hdigits : ∀ d ∈ n.writtenDigits (n.shown x), d < 10 := fun d =>
    Numeral.lt_ten_of_mem_writtenDigits
  intro a ha
  generalize n.writtenDigits (n.shown x) = ds at hdigits ha
  generalize n.writtenSign (n.shown x) = sign at ha
  rcases sign with _ | _ | _
  · rw [Option.map_none, Option.toList_none, List.nil_append, List.head?_map] at ha
    obtain ⟨d, hd, rfl⟩ := Option.map_eq_some_iff.1 ha
    rw [Symbols.digit?_digitChar hs (hdigits d (List.mem_of_head? hd))]
    exact .inl rfl
  · cases ha
    exact .inr (.inl rfl)
  · cases ha
    exact .inr (.inr rfl)

namespace Mode

variable {mode : Mode} {fill : Char}

/-- A pad is dropped up to the first character that is not the same. -/
theorem dropFill_replicate_append {text : List Char}
    (htext : ∀ a ∈ text.head?, mode.sameChar a fill = false) (n : Nat) :
    mode.dropFill fill (List.replicate n fill ++ text) = text := by
  have hpad : ∀ a ∈ List.replicate n fill, mode.sameChar a fill = true := by
    intro a ha
    rw [List.eq_of_mem_replicate ha]
    exact mode.sameChar_self fill
  rw [dropFill, List.dropWhile_append_of_pos hpad]
  cases text with
  | nil => rfl
  | cons a text => exact List.dropWhile_cons_of_neg (by simp [htext a rfl])

/-- A character to fill up numbers with: neither a digit nor a sign, as the mode compares
characters. -/
def IsFill (mode : Mode) (s : Symbols) (fill : Char) : Prop :=
  ∀ a, (s.digit? a).isSome = true ∨ a = s.positive ∨ a = s.negative →
    mode.sameChar a fill = false

/-- With regard to case, and with the standard symbols also without, these are the characters that
are no digit and no sign. -/
theorem isFill_iff {s : Symbols} (h : mode.caseSensitive = true ∨ s = .standard) :
    mode.IsFill s fill ↔ s.digit? fill = none ∧ fill ≠ s.positive ∧ fill ≠ s.negative := by
  have hsame : ∀ a, (s.digit? a).isSome = true ∨ a = s.positive ∨ a = s.negative →
      mode.sameChar a fill = true → fill = a := by
    intro a ha hsame
    rw [sameChar] at hsame
    split at hsame
    · exact (beq_iff_eq.1 hsame).symm
    · obtain rfl := h.resolve_left ‹_›
      rcases ha with ha | rfl | rfl
      · exact eq_of_sameLetter (Symbols.lt_of_digit?_standard ha) hsame
      · exact eq_of_sameLetter (by decide) hsame
      · exact eq_of_sameLetter (by decide) hsame
  constructor
  · intro hfill
    have hnot : ∀ a, (s.digit? a).isSome = true ∨ a = s.positive ∨ a = s.negative → fill ≠ a := by
      rintro a ha rfl
      exact absurd (hfill fill ha) (by rw [mode.sameChar_self]; decide)
    refine ⟨?_, hnot _ (.inr (.inl rfl)), hnot _ (.inr (.inr rfl))⟩
    exact Option.not_isSome_iff_eq_none.1 fun hdigit => hnot fill (.inl hdigit) rfl
  · rintro ⟨hdigit, hpositive, hnegative⟩ a ha
    rw [Bool.eq_false_iff]
    intro hfill
    obtain rfl := hsame a ha hfill
    rcases ha with ha | ha | ha
    · rw [hdigit] at ha
      cases ha
    · exact hpositive ha
    · exact hnegative ha

end Mode

namespace Node

variable {s : Settings} {inner : Node} {width : Nat} {fill : Char} {c after : Context}

/-! ### Writing -/

/-- A pad is put in front of what a node writes, if it is not wider. -/
theorem Prints.pad {f : Field} {x : Int} {text : List Char} (h : Prints s inner f x text)
    (hwidth : text.length ≤ width) (fill : Char) :
    Prints s (pad inner width fill) f x (List.replicate (width - text.length) fill ++ text) := by
  intro v hv buffer
  have hpad := (padBuffer_writes width fill buffer text).eq
  rw [padText, if_neg (Nat.not_lt.2 hwidth)] at hpad
  have hinner : printWith (printTo s v 0) s v inner buffer = (buffer ++ text, .ok true) :=
    h v hv buffer
  rw [print, printTo, printWith, hinner]
  exact hpad

theorem render_of_prints {n : Numeral} {x : Int} {text : List Char}
    (h : Prints s (numeral n) n.field x text) : n.render s.symbols x = .ok text := by
  obtain ⟨v, hv⟩ : ∃ v : Components, v.field n.field = some x :=
    ⟨Components.empty.set n.field x, by simp⟩
  have htext := h.render hv
  cases hn : n.render s.symbols x with
  | ok cs =>
      have hrender : (numeral n).render s v = .ok (some cs) := by
        rw [render, renderTo, renderWith_numeral hv hn]
      rw [htext] at hrender
      cases hrender
      rfl
  | error e =>
      have hrender : (numeral n).render s v = .error (.print e) := by
        rw [render, renderTo, renderWith_numeral_error hv hn]
      rw [htext] at hrender
      cases hrender

/-! ### Reading -/

/-- A padded node is read from what a window has behind the pad. -/
theorem parse_pad {window : List Char} (hlength : window.length = width) (hwidth : 0 < width)
    (inner : Node) (c : Context) (beyond : List Char) :
    (pad inner width fill).parse s c (window ++ beyond) =
      ((inner.parse s c (c.mode.dropFill fill window)).1,
        c.mode.leaveWindow (c.mode.dropFill fill window) beyond
          (inner.parse s c (c.mode.dropFill fill window)).2) := by
  have hadmits : c.mode.admitsWindow width (window ++ beyond) = true := by
    cases window with
    | nil => exact absurd hlength (Nat.ne_of_lt hwidth)
    | cons a window => simp [Mode.admitsWindow, ← hlength]
  rw [parse, parseTo, parseWith, if_pos hadmits, List.take_left' hlength, List.drop_left' hlength]
  rfl

/-- In strict mode there has to be a text for the whole window. -/
theorem parse_pad_short (hstrict : c.mode.strict = true) {text : List Char}
    (hshort : text.length < width) :
    (pad inner width fill).parse s c text = (c, .error text) := by
  have hadmits : ¬ c.mode.admitsWindow width text = true := by
    simp [Mode.admitsWindow, hstrict, hshort]
  rw [parse, parseTo, parseWith, if_neg hadmits]

/-- What a node reads to the end is read behind a pad, up to the width of both. -/
theorem parse_pad_of_parse {text : List Char} (hwidth : 0 < width) (hlength : text.length ≤ width)
    (htext : ∀ a ∈ text.head?, c.mode.sameChar a fill = false)
    (h : inner.parse s c text = (after, .ok [])) (rest : List Char) :
    (pad inner width fill).parse s c
        (List.replicate (width - text.length) fill ++ text ++ rest) = (after, .ok rest) := by
  have hwindow : (List.replicate (width - text.length) fill ++ text).length = width := by
    rw [List.length_append, List.length_replicate]
    omega
  rw [parse_pad hwindow hwidth, Mode.dropFill_replicate_append htext, h]
  simp [Mode.leaveWindow]

/-- In strict mode a window is read whatever follows it, or refused at one place in it whatever
follows it. -/
theorem parse_pad_strict (inner : Node) (fill : Char) {window : List Char}
    (hlength : window.length = width) (hwidth : 0 < width) (hstrict : c.mode.strict = true) :
    ∃ after, (∀ beyond, (pad inner width fill).parse s c (window ++ beyond) = (after, .ok beyond)) ∨
      ∃ stop, stop <:+ window ∧ ∀ beyond,
        (pad inner width fill).parse s c (window ++ beyond) = (after, .error (stop ++ beyond)) := by
  have hbody : c.mode.dropFill fill window <:+ window := List.dropWhile_suffix _
  have hstop := parseTo_stopsIn s 1 inner c (c.mode.dropFill fill window)
  change StopsIn _ (inner.parse s c (c.mode.dropFill fill window)).2 at hstop
  simp only [parse_pad hlength hwidth]
  generalize inner.parse s c (c.mode.dropFill fill window) = parsed at hstop ⊢
  obtain ⟨after, result⟩ := parsed
  refine ⟨after, ?_⟩
  rcases result with stop | _ | ⟨a, rest⟩
  · exact .inr ⟨stop, List.IsSuffix.trans hstop hbody, fun beyond => rfl⟩
  · refine .inl fun beyond => ?_
    simp [Mode.leaveWindow]
  · refine .inr ⟨_, hbody, fun beyond => ?_⟩
    simp [Mode.leaveWindow, hstrict]

/-! ### Numbers -/

/-- A number is read back behind a pad that it does not go on with, whatever follows. -/
theorem parse_pad_numeral (hs : s.symbols.Legible) {n : Numeral} (hn : n.WellSized)
    (hreserved : n.reserved = 0) {x : Int} (hx : n.Recovers x) {text : List Char}
    (htext : n.render s.symbols x = .ok text) (hwidth : 0 < width) (hlength : text.length ≤ width)
    (hstrict : c.mode.strict = true) (hfill : ∀ a ∈ text.head?, c.mode.sameChar a fill = false)
    (hc : ∀ old ∈ c.current.field n.field, old = x) (rest : List Char) :
    (pad (numeral n) width fill).parse s c
        (List.replicate (width - text.length) fill ++ text ++ rest) =
      ({ c with current := c.current.set n.field x }, .ok rest) := by
  have hend : s.symbols.EndsDigits [] := nofun
  have hleaves : n.Leaves s.symbols [] := by
    refine .inr fun limit _ => ?_
    rw [Symbols.digitRun_of_endsDigits hend, hreserved]
    rfl
  have hparse : (numeral n).parse s c (text ++ []) =
      ({ c with current := c.current.set n.field x }, .ok []) := by
    rw [parse, parseTo]
    exact parseWith_numeral hs hn hx htext hleaves hstrict hc
  rw [List.append_nil] at hparse
  exact parse_pad_of_parse hwidth hlength hfill hparse rest

/-- A pad keeps its node to a window. What a number writes with a pad that is neither a digit nor a
sign has the width of the pad and is read back in strict mode in front of any text. And whatever is
padded, what is read in strict mode has that width, and a window is read or refused alike in front
of any text. -/
theorem parse_print_pad (s : Settings) {width : Nat} (hwidth : 1 ≤ width) (fill : Char)
    {c : Context} (hstrict : c.mode.strict = true) :
    (s.symbols.Legible → ∀ f minWidth maxWidth sign,
      (Numeral.plain f minWidth maxWidth sign).WellSized → sign ≠ .never →
      c.mode.IsFill s.symbols fill → ∀ x, FitsInt64 x → ∀ text,
      Prints s (numeral (.plain f minWidth maxWidth sign)) f x text → text.length ≤ width →
      let padded := List.replicate (width - text.length) fill ++ text
      let node := pad (numeral (.plain f minWidth maxWidth sign)) width fill
      padded.length = width ∧ Prints s node f x padded ∧
        ((∀ old ∈ c.current.field f, old = x) → ∀ rest,
          node.parse s c (padded ++ rest) = ({ c with current := c.current.set f x }, .ok rest))) ∧
      ∀ inner : Node,
        (∀ text after rest, (pad inner width fill).parse s c text = (after, .ok rest) →
          ∃ window, text = window ++ rest ∧ window.length = width) ∧
        ∀ window : List Char, window.length = width → ∃ after,
          (∀ beyond, (pad inner width fill).parse s c (window ++ beyond) = (after, .ok beyond)) ∨
            ∃ stop, stop <:+ window ∧ ∀ beyond,
              (pad inner width fill).parse s c (window ++ beyond) =
                (after, .error (stop ++ beyond)) := by
  refine ⟨?number, fun inner => ⟨fun text after rest h => ?_, fun window hlength => ?_⟩⟩
  case number =>
    intro hs f minWidth maxWidth sign hn hsign hfill x hx text hprints hlength padded node
    refine ⟨?_, hprints.pad hlength fill, fun hc rest => ?_⟩
    · rw [List.length_append, List.length_replicate]
      omega
    · have hrender := render_of_prints hprints
      exact parse_pad_numeral hs hn rfl (.plain hx hsign) hrender hwidth hlength hstrict
        (fun a ha => hfill a (Numeral.head?_of_render hs hrender a ha)) hc rest
  · by_cases hshort : text.length < width
    · rw [parse_pad_short hstrict hshort] at h
      cases h
    · have hwindow : (text.take width).length = width :=
        List.length_take_of_le (Nat.not_lt.1 hshort)
      obtain ⟨after', hread | ⟨stop, -, hrefused⟩⟩ :=
        parse_pad_strict inner fill hwindow hwidth hstrict
      · have hrest := hread (text.drop width)
        rw [List.take_append_drop, h] at hrest
        cases hrest
        exact ⟨text.take width, (List.take_append_drop width text).symm, hwindow⟩
      · have hrest := hrefused (text.drop width)
        rw [List.take_append_drop, h] at hrest
        cases hrest
  · exact parse_pad_strict inner fill hlength hwidth hstrict

/-- The year stops at the end of its window, and so does a section in a window. -/
theorem parse_print_pad_minus_42 :
    let year := Numeral.plain .year 1 19 .normal
    let node := pad (numeral year) 5 ' '
    let inner := group [numeral year, group [literal ['x']] true] false
    (Settings.root.symbols.Legible ∧ Context.initial.mode.strict = true ∧ year.WellSized ∧
        year.sign ≠ .never ∧ Context.initial.mode.IsFill Settings.root.symbols ' ' ∧
        FitsInt64 (-42) ∧ Prints .root (numeral year) .year (-42) ['-', '4', '2'] ∧
        (pad inner 5 ' ').parse .root .initial [' ', ' ', ' ', '4', 'x', '7'] =
          ({ Context.initial with current := Components.empty.set .year 4 }, .ok ['7'])) ∧
      Prints .root node .year (-42) [' ', ' ', '-', '4', '2'] ∧
      node.parse .root .initial [' ', ' ', '-', '4', '2', '7'] =
        ({ Context.initial with current := Components.empty.set .year (-42) }, .ok ['7']) ∧
      ∃ window, [' ', ' ', ' ', '4', 'x', '7'] = window ++ ['7'] ∧ window.length = 5 := by
  intro year node inner
  have hs : Settings.root.symbols.Legible := Symbols.standard_legible
  have hn : year.WellSized := ⟨by decide, by decide, by decide⟩
  have hfill : Context.initial.mode.IsFill Settings.root.symbols ' ' :=
    (Mode.isFill_iff (.inl rfl)).2 (by decide)
  have hfits : FitsInt64 (-42) := by decide
  have hprints : Prints .root (numeral year) .year (-42) ['-', '4', '2'] := by
    refine prints_of_render fun v hv => ?_
    have hrender : year.render Settings.root.symbols (-42) = .ok ['-', '4', '2'] := by decide
    rw [Leaf.render, show year.field = .year from rfl, hv, Leaf.renderField, hrender]
  have hread : (pad inner 5 ' ').parse .root .initial [' ', ' ', ' ', '4', 'x', '7'] =
      ({ Context.initial with current := Components.empty.set .year 4 }, .ok ['7']) := rfl
  have hunset : ∀ old ∈ Context.initial.current.field .year, old = -42 := by
    intro old hold
    cases hold
  obtain ⟨hnumber, hwindow⟩ := parse_print_pad .root (show 1 ≤ 5 by decide) ' ' (c := .initial) rfl
  obtain ⟨-, hpadded, hparse⟩ := hnumber hs .year 1 19 .normal hn (by decide) hfill (-42) hfits
    ['-', '4', '2'] hprints (by decide)
  exact ⟨⟨hs, rfl, hn, by decide, hfill, hfits, hprints, hread⟩, hpadded, hparse hunset ['7'],
    (hwindow inner).1 _ _ _ hread⟩

end Node

end DateTimeText
