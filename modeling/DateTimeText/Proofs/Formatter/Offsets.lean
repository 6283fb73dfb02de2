import DateTimeText.Proofs.Builder.Timestamps
import DateTimeText.Proofs.Chronology.YearRanges
import DateTimeText.Proofs.Formatter.Positions
import DateTimeText.Proofs.Formatter.Writing
import DateTimeText.Proofs.Node.NumericZero

/-!
# Offsets with a formatter

An offset that is written is read back as far as the parts of its form go. The letters `x` and `Z`
ask for forms whose zero offset is written in digits: there an offset may be taken for a zero offset
with more text behind it.
-/

namespace DateTimeText

/-- The formatter of an offset and nothing else. -/
def Formatter.ofOffset (o : OffsetForm) (s : Settings) : Formatter :=
  ⟨(Builder.new.appendOffset o.pattern o.zeroText).nodes, s⟩

namespace OffsetForm

/-- A form writes a value as a text, whatever was written before. -/
structure Prints (o : OffsetForm) (v : Components) (text : List Char) : Prop where
  node : ∀ s buffer, (Node.leaf (.offset o)).print s v buffer = (buffer ++ text, .ok true)
  formatter : ∀ s, (Formatter.ofOffset o s).format v = .ok text

/-- A form takes a text for an offset and leaves the text behind it: in any context that has no other
offset, and behind any text. -/
structure Takes (o : OffsetForm) (taken rest : List Char) (value : Int) : Prop where
  node : ∀ (s : Settings) (c : Context), (∀ old ∈ c.current.field .offsetSeconds, old = value) →
    (Node.leaf (.offset o)).parse s c (taken ++ rest) =
      ({ c with current := c.current.set .offsetSeconds value }, .ok rest)
  formatter : ∀ (s : Settings) (before : List Char) (errorIndex : Option Nat),
    (Formatter.ofOffset o s).parseAt (before ++ (taken ++ rest)) ⟨byteLength before, errorIndex⟩ =
      (some (Components.empty.set .offsetSeconds value), ⟨byteLength (before ++ taken), errorIndex⟩)
  whole : rest = [] → value ∈ Field.offsetSeconds.range → ∀ s,
    (Formatter.ofOffset o s).parse taken = .ok (Components.empty.set .offsetSeconds value)

variable {o : OffsetForm} {total value : Int} {text taken rest : List Char} {v : Components}

/-- What is left of an offset is its distance from UTC truncated to what its last part counts. -/
theorem kept_eq_tdiv_mul (p : OffsetPattern) (total : Int) :
    kept p total = total.tdiv p.resolution * p.resolution := by
  have hsplit := Int.mul_tdiv_add_tmod total p.resolution
  rw [Int.mul_comm] at hsplit
  rw [kept]
  omega

theorem prints_of_render (hv : v.field .offsetSeconds = some total)
    (htext : o.render total = .ok text) : o.Prints v text := by
  have hrender : ∀ s, Leaf.render s v (.offset o) = .ok (some text) := by
    intro s
    rw [Leaf.render, hv, Leaf.renderField, htext]
  constructor
  · intro s buffer
    exact Node.print_leaf (hrender s) buffer
  · intro s
    exact Formatter.format_leaf (hrender s)

theorem takes_of_read? (h : ∀ mode, o.read? mode (taken ++ rest) = some (value, rest)) :
    o.Takes taken rest value := by
  have hnode : ∀ (s : Settings) (c : Context),
      (∀ old ∈ c.current.field .offsetSeconds, old = value) →
      (Node.leaf (.offset o)).parse s c (taken ++ rest) =
        ({ c with current := c.current.set .offsetSeconds value }, .ok rest) := by
    intro s c hc
    rw [Node.parse_leaf, Leaf.read, OffsetForm.read, h]
    exact Context.storeResult_value hc _ rest
  have hstart : ∀ s, (Formatter.ofOffset o s).parseStart (taken ++ rest) =
      .ok (Components.empty.set .offsetSeconds value, rest) :=
    fun s => Formatter.parseStart_node_of_ok (hnode s .initial (by rintro _ ⟨⟩))
  refine ⟨hnode, ?formatter, ?whole⟩
  case formatter =>
    intro s before errorIndex
    exact Formatter.parseAt_of_parseStart _ (hstart s) before errorIndex
  case whole =>
    rintro rfl hvalue s
    have hrange : ∀ c : Chronology, value ∈ c.range .offsetSeconds := by
      intro c
      rwa [Chronology.range_of_ne (by decide) (by decide) (by decide)]
    rw [List.append_nil] at hstart
    exact Formatter.parse_of_parseStart (hstart s)
      (Components.checkRanges_set (Components.checkRanges_empty _) (hrange _))

/-! ### Forms of letters -/

/-- The form of offsets that a run of `x` or `Z` stands for. -/
def ofLetters? (letter : Char) (count : Nat) : Option OffsetForm :=
  match letter, count with
  | 'x', 1 => some ⟨"+00".toList, .hoursOptionalMinutes⟩
  | 'x', 2 => some ⟨"+0000".toList, .hoursMinutes⟩
  | 'x', 3 => some ⟨"+00:00".toList, .hoursColonMinutes⟩
  | 'x', 4 => some ⟨"+0000".toList, .hoursMinutesOptionalSeconds⟩
  | 'x', 5 => some ⟨"+00:00".toList, .hoursColonMinutesOptionalSeconds⟩
  | 'Z', 1 | 'Z', 2 | 'Z', 3 => some ⟨"+0000".toList, .hoursMinutes⟩
  | _, _ => none

theorem numericZero_of_ofLetters? {letter : Char} {count : Nat}
    (h : ofLetters? letter count = some o) : o.NumericZero := by
  unfold ofLetters? at h
  split at h
  all_goals first | cases h; exact ⟨nofun, nofun, rfl⟩ | cases h

end OffsetForm

namespace Formatter

open OffsetForm

variable {o : OffsetForm} {total : Int} {v : Components}

/-- An offset is written, and read back without what is less than its last part counts, in front of
any text that does not go on with a part of it. -/
theorem parse_format_offset (hne : o.zeroText ≠ [])
    (hhead : ∀ c ∈ o.zeroText.head?, c ≠ '+' ∧ c ≠ '-') (h : total.natAbs < 60 * 3600)
    (hv : v.field .offsetSeconds = some total) :
    ∃ text, o.Prints v text ∧ ∀ rest, EndsOffset rest →
      o.Takes text rest (total.tdiv o.pattern.resolution * o.pattern.resolution) := by
  have htext := render_eq_ok o h
  refine ⟨_, prints_of_render hv htext, fun rest hrest => ?_⟩
  rw [← kept_eq_tdiv_mul]
  apply takes_of_read?
  intro mode
  exact read?_render (tellsZero_of_head hne hhead mode) h htext hrest

/-- Half a minute is not read back in minutes, nor is it on the other side of zero. -/
theorem parse_format_offset_minutes :
    let o : OffsetForm := ⟨['Z'], .hoursColonOptionalMinutes⟩
    let v := Components.empty.set .offsetSeconds (-5430)
    (o.zeroText ≠ [] ∧ (∀ c ∈ o.zeroText.head?, c ≠ '+' ∧ c ≠ '-') ∧
      Int.natAbs (-5430) < 60 * 3600 ∧ v.field .offsetSeconds = some (-5430)) ∧
    ∃ text, o.Prints v text ∧ ∀ rest, EndsOffset rest → o.Takes text rest (-5400) := by
  intro o v
  have hne : o.zeroText ≠ [] := nofun
  have hhead : ∀ c ∈ o.zeroText.head?, c ≠ '+' ∧ c ≠ '-' := by
    rintro c ⟨⟩
    decide
  have h : Int.natAbs (-5430) < 60 * 3600 := by decide
  have hkept : Int.tdiv (-5430) (OffsetPattern.resolution .hoursColonOptionalMinutes) *
      OffsetPattern.resolution .hoursColonOptionalMinutes = -5400 := by decide
  obtain ⟨text, hprints, htakes⟩ := parse_format_offset (v := v) hne hhead h rfl
  refine ⟨⟨hne, hhead, h, rfl⟩, text, hprints, fun rest hrest => ?_⟩
  rw [← hkept]
  exact htakes rest hrest

theorem ofPattern_of_ofLetters? {letter : Char} {count : Nat}
    (h : ofLetters? letter count = some o) :
    ofPattern (List.replicate count letter) = .ok (ofOffset o .root) := by
  have hletter : letter.isAlpha ∧ letter ≠ 'p' ∧ 0 < count ∧
      Builder.new.appendLetters letter count =
        .ok (Builder.new.appendOffset o.pattern o.zeroText) := by
    unfold ofLetters? at h
    split at h
    all_goals first | cases h; exact ⟨rfl, by decide, by decide, rfl⟩ | cases h
  obtain ⟨halpha, hpad, hpos, happend⟩ := hletter
  rw [ofPattern, ofPatternWithLocale, Builder.appendPattern_run _ halpha hpad hpos, happend]
  rfl

/-- An offset that is written by letters is read back at the end of a text without what is less than
its last part counts. Only where all that is not zero is a last part that need not stand, what is in
front of it is taken for a zero offset. -/
theorem parse_format_offset_letters {letter : Char} {count : Nat}
    (ho : ofLetters? letter count = some o) (h : total.natAbs < 60 * 3600)
    (hv : v.field .offsetSeconds = some total) :
    ofPattern (List.replicate count letter) = .ok (ofOffset o .root) ∧
      ∃ text, o.Prints v text ∧
        (¬ o.Shadows total →
          o.Takes text [] (total.tdiv o.pattern.resolution * o.pattern.resolution)) ∧
        (o.Shadows total →
          text = o.zeroText ++ lastPart o.pattern total ∧
            o.Takes o.zeroText (lastPart o.pattern total) 0) := by
  have hzero := numericZero_of_ofLetters? ho
  have htext := render_eq_ok o h
  refine ⟨ofPattern_of_ofLetters? ho, _, prints_of_render hv htext, ?reads, ?shadows⟩
  case reads =>
    intro hshadows
    rw [← kept_eq_tdiv_mul]
    apply takes_of_read?
    intro mode
    exact hzero.read?_render_of_not_shadows h hshadows htext mode
  case shadows =>
    intro hshadows
    rw [hzero.render_of_shadows h hshadows] at htext
    refine ⟨(Except.ok.inj htext).symm, ?_⟩
    apply takes_of_read?
    intro mode
    exact hzero.read?_zeroText mode _

/-- Before UTC half an hour is read back by `x`. -/
theorem parse_format_offset_letters_before_utc :
    let o : OffsetForm := ⟨"+00".toList, .hoursOptionalMinutes⟩
    let v := Components.empty.set .offsetSeconds (-1800)
    (ofLetters? 'x' 1 = some o ∧ Int.natAbs (-1800) < 60 * 3600 ∧
      v.field .offsetSeconds = some (-1800)) ∧
    ofPattern ['x'] = .ok (ofOffset o .root) ∧
      ∃ text, o.Prints v text ∧ o.Takes text [] (-1800) := by
  intro o v
  have h : Int.natAbs (-1800) < 60 * 3600 := by decide
  have hkept : Int.tdiv (-1800) (OffsetPattern.resolution .hoursOptionalMinutes) *
      OffsetPattern.resolution .hoursOptionalMinutes = -1800 := by decide
  have ho : ofLetters? 'x' 1 = some o := rfl
  obtain ⟨hpattern, text, hprints, htakes, -⟩ := parse_format_offset_letters (v := v) ho h rfl
  refine ⟨⟨ho, h, rfl⟩, hpattern, text, hprints, ?_⟩
  rw [← hkept]
  exact htakes (by decide)

/-- Behind UTC half an hour is written by `x` as a zero offset with `30` behind it, and read so. -/
theorem half_hour_read_as_zero :
    let f := ofOffset ⟨"+00".toList, .hoursOptionalMinutes⟩ .root
    let v := Components.empty.set .offsetSeconds 1800
    ofPattern ['x'] = .ok f ∧
      Int.natAbs 1800 < 60 * 3600 ∧
      Int.tdiv 1800 (OffsetPattern.resolution .hoursOptionalMinutes) *
        OffsetPattern.resolution .hoursOptionalMinutes = 1800 ∧
      f.format v = .ok "+0030".toList ∧
      f.parseAt "+0030".toList ⟨0, none⟩ =
        (some (Components.empty.set .offsetSeconds 0), ⟨3, none⟩) ∧
      f.parse "+0030".toList = .error (.unparsedText "+0030" 3) :=
  ⟨ofPattern_of_ofLetters? (rfl : ofLetters? 'x' 1 = some _), by decide, by decide, by rfl, by rfl,
    by rfl⟩

end Formatter

end DateTimeText
