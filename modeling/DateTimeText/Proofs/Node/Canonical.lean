import DateTimeText.Proofs.Node.FieldValues
import DateTimeText.Proofs.Node.Numeral
import DateTimeText.Proofs.Node.Rendering
import DateTimeText.Proofs.Node.SecondFraction
import DateTimeText.Proofs.Formatter.Numbers

/-!
# Leaves that write what they read

A number of a fixed width, a fraction of a second with a fixed number of digits and a literal read
nothing but the text that they write for what they have read. So does a row of them: where one
stops, the next one starts, and values that are read twice are the same.
-/

namespace DateTimeText

namespace Numeral

/-- A number of a fixed width without a sign, whose digits always fit 64 bits. -/
structure HasWidth (n : Numeral) (width : Nat) : Prop where
  pos : 0 < width
  le : width ≤ 18
  minWidth_eq : n.minWidth = width
  maxWidth_eq : n.maxWidth = width
  sign_eq : n.sign = .notNegative
  reserved_eq : n.reserved = 0

/-- A number of a fixed width without a sign. If it is reduced, its window starts above zero. -/
structure Exact (n : Numeral) (width : Nat) : Prop where
  pos : 0 < width
  le : width ≤ 18
  minWidth_eq : n.minWidth = width
  maxWidth_eq : n.maxWidth = width
  sign_eq : n.sign = .notNegative
  reserved_eq : n.reserved = 0
  window_eq : ∀ w ∈ n.window, 0 < w.base ∧ w.span = tenPow width

variable {n : Numeral} {width : Nat} {s : Symbols} {text : List Char}

theorem Exact.shown_decode (hn : n.Exact width) {d : Nat} (hd : d < tenPow width) :
    n.shown (n.decode d) = d := by
  rw [shown, decode]
  cases hw : n.window with
  | none => rfl
  | some w =>
      obtain ⟨hbase, hspan⟩ := hn.window_eq w hw
      have hlt : (d : Int) < w.span := by omega
      exact congrArg Nat.cast (Window.lastDigits_decode hlt (.inl hbase))

theorem Exact.hasWidth (hn : n.Exact width) : n.HasWidth width :=
  ⟨hn.pos, hn.le, hn.minWidth_eq, hn.maxWidth_eq, hn.sign_eq, hn.reserved_eq⟩

theorem HasWidth.fits (hn : n.HasWidth width) {ds : List Nat} (hlen : ds.length = width)
    (hds : ∀ d ∈ ds, d < 10) : FitsInt64 (ofDigits ds) :=
  @fits_signedValue none ds hds (Nat.lt_succ_of_le (hlen ▸ hn.le))

/-- A number of a fixed width reads exactly its digits. -/
theorem HasWidth.digitRun_of_readDigits (hn : n.HasWidth width) {start : List Char} {r : Reading}
    (h : n.readDigits s true none start text = .ok r) :
    (s.digitRun width text).length = width ∧
      r = .value n.field (n.decode (ofDigits (s.digitRun width text))) text (text.drop width) := by
  obtain ⟨hle, hlt, -⟩ := s.digitRun_spec width text
  have hrun : s.digitRun (n.maxWidth + n.reserved) text = s.digitRun width text := by
    rw [hn.maxWidth_eq, hn.reserved_eq, Nat.add_zero]
  generalize s.digitRun width text = ds at hrun hle hlt ⊢
  have htake : ds.take (max n.minWidth (ds.length - n.reserved)) = ds := by
    rw [hn.minWidth_eq]
    exact List.take_of_length_le (Nat.le_trans hle (Nat.le_max_left _ _))
  obtain ⟨hlong, -, hr⟩ := (readDigits_eq_ok_iff hrun htake).1 h
  rw [hn.minWidth_eq] at hlong
  have hlen : ds.length = width := Nat.le_antisymm hle hlong
  rw [fitting_of_length_lt hlt (Nat.lt_succ_of_le (hlen ▸ hn.le)), hlen] at hr
  exact ⟨hlen, hr⟩

theorem HasWidth.readDigits_eq_ok (hn : n.HasWidth width) {start : List Char} {r : Reading}
    (h : n.readDigits s true none start text = .ok r) :
    ∃ ds rest, ds.length = width ∧ (∀ d ∈ ds, d < 10) ∧ text = ds.map s.digitChar ++ rest ∧
      r = .value n.field (n.decode (ofDigits ds)) text rest := by
  obtain ⟨hlen, hr⟩ := hn.digitRun_of_readDigits h
  have hsplit := s.eq_append_of_digitRun width text
  rw [hlen] at hsplit
  exact ⟨_, _, hlen, (s.digitRun_spec width text).2.1, hsplit, hr⟩

/-- A number that is not negative is read from its digits in strict mode. -/
theorem readDigits_of_read (hsign : n.sign = .notNegative) {r : Reading}
    (h : n.read s true text = .ok r) : n.readDigits s true none text text = .ok r := by
  obtain ⟨sign, body, hmem, rfl, hread⟩ := exists_sign_of_read h
  rw [hsign, SignStyle.signs, List.mem_singleton] at hmem
  subst hmem
  exact hread

theorem HasWidth.read_eq_ok (hn : n.HasWidth width) {r : Reading} (h : n.read s true text = .ok r) :
    ∃ ds rest, ds.length = width ∧ (∀ d ∈ ds, d < 10) ∧ text = ds.map s.digitChar ++ rest ∧
      r = .value n.field (n.decode (ofDigits ds)) text rest :=
  hn.readDigits_eq_ok (readDigits_of_read hn.sign_eq h)

/-- The digits of a number of a fixed width are read in front of any text. -/
theorem HasWidth.read_append (hs : s.Legible) (hn : n.HasWidth width) {ds : List Nat}
    (hlen : ds.length = width) (hds : ∀ d ∈ ds, d < 10) (rest : List Char) :
    n.read s true (ds.map s.digitChar ++ rest) =
      .ok (.value n.field (n.decode (ofDigits ds)) (ds.map s.digitChar ++ rest) rest) := by
  have hmin := hn.minWidth_eq
  have hmax := hn.maxWidth_eq
  have hlimit : n.maxWidth + n.reserved - ds.length = 0 := by
    rw [hmax, hn.reserved_eq, hlen, Nat.add_zero, Nat.sub_self]
  have hrun : (s.digitRun (n.maxWidth + n.reserved - ds.length) rest).length = n.reserved := by
    rw [hlimit, hn.reserved_eq]
    rfl
  have hne : ds ≠ [] := List.ne_nil_of_length_pos (hlen ▸ hn.pos)
  have halways : n.sign ≠ .always := by simp [hn.sign_eq]
  have hexceeds : n.sign ≠ .exceedsPad := by simp [hn.sign_eq]
  have hread : n.read s true (ds.map s.digitChar ++ rest) =
      n.readDigits s true none (ds.map s.digitChar ++ rest) (ds.map s.digitChar ++ rest) :=
    @read_sign_append n s hs none ds rest hds hne nofun nofun fun _ => halways
  have hnegative : (none : Option Sign) = some .negative → ofDigits ds ≠ 0 := nofun
  have hpositive : (none : Option Sign) = some .positive → n.sign = .exceedsPad →
      n.minWidth < ds.length := nofun
  rw [hread]
  exact readDigits_append hs hds (by omega) (by omega) hrun hnegative hpositive
    (fun _ h => absurd h hexceeds) rfl (hn.fits hlen hds)

theorem Exact.render_decode (hs : s.Legible) (hn : n.Exact width) {ds : List Nat}
    (hlen : ds.length = width) (hds : ∀ d ∈ ds, d < 10) :
    n.render s (n.decode (ofDigits ds)) = .ok (ds.map s.digitChar) := by
  have hvalue := ofDigits_lt hds
  have hne : ds ≠ [] := List.ne_nil_of_length_pos (hlen ▸ hn.pos)
  have hpadded := paddedDigits_ofDigits hne hds
  rw [hlen] at hvalue hpadded
  rw [render_fixed hs hn.pos hn.minWidth_eq hn.maxWidth_eq hn.sign_eq, hn.shown_decode hvalue,
    Int.natAbs_natCast, if_neg (Nat.not_le.2 hvalue), if_neg (by omega), hpadded]

end Numeral

namespace Fraction

variable {width : Nat} {s : Symbols} {text : List Char}

theorem nanoDigits_read_eq_ok (hpos : 0 < width) (hle : width ≤ 9) {r : Reading}
    (h : (nanoDigits width).read s true text = .ok r) :
    ∃ ds rest, ds.length = width ∧ (∀ d ∈ ds, d < 10) ∧ text = ds.map s.digitChar ++ rest ∧
      r = .value .nanoOfSecond (ofDigits ds * tenPow (9 - width) : Nat) text rest := by
  rcases read_eq_ok h with ⟨hmin, -⟩ | ⟨ds, rest, htext, hlong, hshort, hlt, rfl⟩
  · exact absurd hmin (Nat.pos_iff_ne_zero.1 hpos)
  · have hlen : ds.length = width := Nat.le_antisymm hshort hlong
    have hvalue : valueOf (nanoDigits width).field.range ds =
        (ofDigits ds * tenPow (9 - width) : Nat) := by
      rw [← mul_div_tenPow hle, ← hlen]
      exact valueOf_nano ds
    refine ⟨ds, rest, hlen, hlt, htext, ?_⟩
    rw [hvalue, htext]
    rfl

theorem nanoDigits_render (hs : s.Legible) (hpos : 0 < width) (hle : width ≤ 9) {ds : List Nat}
    (hlen : ds.length = width) (hds : ∀ d ∈ ds, d < 10) :
    (nanoDigits width).render s (ofDigits ds * tenPow (9 - width) : Nat) =
      .ok (ds.map s.digitChar) := by
  have hsized : (nanoDigits width).WellSized := ⟨hpos, Nat.le_refl width, hle⟩
  have hscale : ∀ nano, (nanoDigits width).scale nano = width := scale_eq_of_fixed rfl
  have hvalue := ofDigits_lt hds
  have hne : ds ≠ [] := List.ne_nil_of_length_pos (hlen ▸ hpos)
  have hpadded := paddedDigits_ofDigits hne hds
  rw [hlen] at hvalue hpadded
  have hnano : ofDigits ds * tenPow (9 - width) < tenPow 9 := by
    have hpow : tenPow width * tenPow (9 - width) = tenPow 9 := by
      rw [← tenPow_add, Nat.add_sub_cancel' hle]
    rw [← hpow]
    exact Nat.mul_lt_mul_of_pos_right hvalue (tenPow_pos _)
  rw [render_nano hs hsized rfl hnano, hscale, if_neg (Nat.pos_iff_ne_zero.1 hpos),
    Nat.mul_div_cancel _ (tenPow_pos _), hpadded]
  rfl

end Fraction

theorem Mode.eq_of_sameChar_initial {a c : Char} (h : initial.sameChar a c = true) : c = a := by
  have heq : a = c := by simpa [sameChar, initial] using h
  exact heq.symm

namespace Leaf

variable {st : Settings}

/-- A leaf that reads nothing but the text that it writes for any value with the fields that it has
read. -/
def Canonical (st : Settings) (l : Leaf) : Prop :=
  ∀ text r, l.read st .initial text = .ok r → ∃ cs, text = cs ++ r.rest ∧
    ∀ v : Components, (∀ p ∈ r.fields, v.field p.1 = some p.2) → l.render st v = .ok (some cs)

theorem canonical_literal (chars : List Char) : (literal chars).Canonical st := by
  intro text r h
  rw [read, readLiteral] at h
  split at h
  · rename_i hstrip
    cases h
    exact ⟨chars, Mode.eq_append_of_strip? (fun _ _ _ => Mode.eq_of_sameChar_initial) hstrip,
      fun _ _ => rfl⟩
  · cases h

theorem canonical_numeral (hs : st.symbols.Legible) {n : Numeral} {width : Nat}
    (hn : n.Exact width) : (numeral n).Canonical st := by
  intro text r h
  obtain ⟨ds, rest, hlen, hds, htext, rfl⟩ := hn.hasWidth.read_eq_ok h
  refine ⟨ds.map st.symbols.digitChar, htext, fun v hv => ?_⟩
  have hfield : v.field n.field = some (n.decode (ofDigits ds)) := hv (_, _) List.mem_cons_self
  rw [render, hfield, renderField, hn.render_decode hs hlen hds]

theorem canonical_fraction (hs : st.symbols.Legible) {width : Nat} (hpos : 0 < width)
    (hle : width ≤ 9) : (fraction (.nanoDigits width)).Canonical st := by
  intro text r h
  obtain ⟨ds, rest, hlen, hds, htext, rfl⟩ := Fraction.nanoDigits_read_eq_ok hpos hle h
  refine ⟨ds.map st.symbols.digitChar, htext, fun v hv => ?_⟩
  have hfield : v.field (Fraction.nanoDigits width).field =
      some ((ofDigits ds * tenPow (9 - width) : Nat) : Int) := hv (_, _) List.mem_cons_self
  rw [render, hfield, renderField, Fraction.nanoDigits_render hs hpos hle hlen hds]

end Leaf

/-- What is stored has the fields that it had and those that were read. -/
theorem Context.storeResult_eq_ok {c after : Context} {result : Except (List Char) Reading}
    {rest : List Char} (h : c.storeResult result = (after, .ok rest)) :
    ∃ r, result = .ok r ∧ r.rest = rest ∧ after.mode = c.mode ∧
      c.current.Extends r.fields after.current ∧
      after.current.chronology = r.chronology.or c.current.chronology := by
  have hrefines := c.storeResult_refines result
  rw [h] at hrefines
  generalize hadd : c.current.addResult result = added at hrefines
  cases hrefines
  obtain ⟨r, hr, hrest, hextends, -, hchronology⟩ := Components.addResult_eq_ok hadd
  exact ⟨r, hr, hrest, rfl, hextends, hchronology⟩

namespace Node

variable {expand : Node → Context → List Char → Parsed} {st : Settings}

/-- Leaves that are read: the first of them, whose values are stored, and those behind it. -/
theorem parseAllWith_leaves_cons {l : Leaf} {ls : List Leaf} {c after : Context}
    (hmode : c.mode = .initial) {text rest : List Char}
    (h : parseAllWith expand st ((l :: ls).map leaf) c text = (after, .ok rest)) :
    ∃ r next, l.read st .initial text = .ok r ∧ next.mode = .initial ∧
      c.current.Extends r.fields next.current ∧
      next.current.chronology = r.chronology.or c.current.chronology ∧
      parseAllWith expand st (ls.map leaf) next r.rest = (after, .ok rest) := by
  rw [List.map_cons, parseAllWith, parseWith, hmode] at h
  rcases hstored : c.storeResult (l.read st .initial text) with ⟨next, stop | rest'⟩
  · rw [hstored] at h
    cases h
  · rw [hstored] at h
    obtain ⟨r, hread, rfl, hnext, hextends, hchronology⟩ := Context.storeResult_eq_ok hstored
    exact ⟨r, next, hread, hnext.trans hmode, hextends, hchronology, h⟩

theorem field_of_parseAllWith_leaves {ls : List Leaf} {c after : Context}
    (hmode : c.mode = .initial) {text rest : List Char}
    (h : parseAllWith expand st (ls.map leaf) c text = (after, .ok rest)) {f : Field} {x : Int}
    (hf : c.current.field f = some x) : after.current.field f = some x := by
  induction ls generalizing c text with
  | nil =>
      rw [List.map_nil, parseAllWith] at h
      cases h
      exact hf
  | cons l ls ih =>
      obtain ⟨r, next, -, hnext, hextends, -, hrest⟩ := parseAllWith_leaves_cons hmode h
      exact ih hnext hrest ((hextends f x).2 (.inl hf))

/-- Canonical leaves that are read one after the other write the whole of what they have read.
Induction on the leaves: what one of them has read is still there at the end. -/
theorem written_of_parseAllWith {ls : List Leaf} (hls : ∀ l ∈ ls, l.Canonical st)
    {c after : Context} (hmode : c.mode = .initial) {text rest : List Char}
    (h : parseAllWith expand st (ls.map leaf) c text = (after, .ok rest)) :
    ∃ cs, text = cs ++ rest ∧ Leaf.Written st after.current ls cs := by
  induction ls generalizing c text with
  | nil =>
      rw [List.map_nil, parseAllWith] at h
      cases h
      exact ⟨[], rfl, .nil⟩
  | cons l ls ih =>
      rw [List.forall_mem_cons] at hls
      obtain ⟨r, next, hread, hnext, hextends, -, hrest⟩ := parseAllWith_leaves_cons hmode h
      obtain ⟨cs, hcs, hwritten⟩ := ih hls.2 hnext hrest
      obtain ⟨first, htext, hrender⟩ := hls.1 text r hread
      refine ⟨first ++ cs, ?_, .cons (hrender _ fun p hp => ?_) hwritten⟩
      · rw [htext, hcs, List.append_assoc]
      · exact field_of_parseAllWith_leaves hnext hrest ((hextends p.1 p.2).2 (.inr hp))

theorem renderAllWith_written {expandText : Node → Except FormatError (Option (List Char))}
    {v : Components} {ls : List Leaf} {text : List Char} (h : Leaf.Written st v ls text) :
    renderAllWith expandText st v (ls.map leaf) = .ok (some text) := by
  induction h with
  | nil => rw [List.map_nil, renderAllWith]
  | cons hl hls ih => exact renderAllWith_cons (by rw [renderWith, hl]) ih

end Node

end DateTimeText
