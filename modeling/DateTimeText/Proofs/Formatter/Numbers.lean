import DateTimeText.Formatter
import DateTimeText.Proofs.Builder.Numbers
import DateTimeText.Proofs.Node.LeafReading

/-!
# Formats of numbers are read as they were written

A formatter that is built of numbers and literals reads back what it has written. A number of
variable width may be followed only by numbers that are joined to it, up to the next literal, and
this literal must not start with a digit.
-/

namespace DateTimeText

namespace Place

variable {place : Place} {n : Numeral}

theorem put_eq (hn : n.StandsAs place) (anchored : Bool) (width : Nat) :
    ∃ a, place.put anchored width n = { n with adjacency := a } ∧
      (place.put anchored width n).reserved = if place = .anchor then width else 0 := by
  obtain ⟨f, minWidth, maxWidth, sign, adjacency, window⟩ := n
  obtain rfl : adjacency = .reserves 0 := hn.adjacency_eq
  rcases place with _ | _ | _
  · refine ⟨.reserves width, ?_, ?_⟩
    · simp [put, Numeral.reserve]
    · simp [put, Numeral.reserve, Numeral.reserved]
  · cases anchored with
    | false => exact ⟨.reserves 0, rfl, rfl⟩
    | true =>
        cases window with
        | none => exact ⟨.fixed, rfl, rfl⟩
        | some w => exact ⟨.reserves 0, rfl, rfl⟩
  · exact ⟨.reserves 0, rfl, rfl⟩

theorem field_put (hn : n.StandsAs place) (anchored : Bool) (width : Nat) :
    (place.put anchored width n).field = n.field := by
  obtain ⟨a, ha, -⟩ := put_eq hn anchored width
  rw [ha]

theorem render_put (hn : n.StandsAs place) (anchored : Bool) (width : Nat) (s : Symbols)
    (value : Int) : (place.put anchored width n).render s value = n.render s value := by
  obtain ⟨a, ha, -⟩ := put_eq hn anchored width
  rw [ha]
  rfl

theorem wellSized_put (hn : n.StandsAs place) (anchored : Bool) (width : Nat) :
    (place.put anchored width n).WellSized := by
  obtain ⟨a, ha, -⟩ := put_eq hn anchored width
  rw [ha]
  exact ⟨hn.wellSized.one_le_minWidth, hn.wellSized.minWidth_le_maxWidth, hn.wellSized.maxWidth_le⟩

theorem recovers_put (hn : n.StandsAs place) (anchored : Bool) (width : Nat) {value : Int}
    (h : n.Recovers value) : (place.put anchored width n).Recovers value := by
  obtain ⟨a, ha, -⟩ := put_eq hn anchored width
  rw [ha]
  exact ⟨h.fits, h.nonneg_of_never, h.mem_window⟩

/-- A number leaves what follows it if it is no anchor or if the digits it leaves follow it. -/
theorem leaves_put (hn : n.StandsAs place) (anchored : Bool) {width : Nat} {s : Symbols}
    {rest : List Char}
    (h : place = .anchor → ∀ limit, width ≤ limit → (s.digitRun limit rest).length = width) :
    (place.put anchored width n).Leaves s rest := by
  obtain ⟨a, ha, hreserved⟩ := put_eq hn anchored width
  by_cases hplace : place = .anchor
  · right
    rw [hreserved, if_pos hplace]
    exact h hplace
  · left
    refine ⟨?_, ?_⟩
    · rw [ha]
      exact hn.width_eq hplace
    · rw [hreserved, if_neg hplace]

end Place

/-- The components with no more than some fields. -/
def Components.restrict (v : Components) (fields : List Field) : Components :=
  ⟨fun f => if f ∈ fields then v.field f else none, none, none⟩

theorem Components.set_restrict {v : Components} {f : Field} {x : Int} (h : v.field f = some x)
    (fields : List Field) : (v.restrict fields).set f x = v.restrict (fields ++ [f]) := by
  refine Components.ext (funext fun g => ?_) rfl rfl
  by_cases hg : g = f
  · subst hg
    simp [restrict, h]
  · simp [restrict, hg]

theorem Components.field_of_restrict {v : Components} {fields : List Field} {f : Field} {x : Int}
    (h : (v.restrict fields).field f = some x) : v.field f = some x := by
  simp only [restrict] at h
  split at h
  · exact h
  · cases h

namespace Leaf

variable {st : Settings} {v : Components}

/-- The text of leaves, one after the other. -/
inductive Written (st : Settings) (v : Components) : List Leaf → List Char → Prop
  | nil : Written st v [] []
  | cons {l : Leaf} {ls : List Leaf} {cs text : List Char} (hl : l.render st v = .ok (some cs))
      (hls : Written st v ls text) : Written st v (l :: ls) (cs ++ text)

theorem Written.exists_of_cons {l : Leaf} {ls : List Leaf} {text : List Char}
    (h : Written st v (l :: ls) text) :
    ∃ cs rest, l.render st v = .ok (some cs) ∧ Written st v ls rest ∧ text = cs ++ rest := by
  cases h with
  | cons hl hls => exact ⟨_, _, hl, hls, rfl⟩

theorem renderField_eq_ok_some {ε : Type} {lift : ε → FormatError}
    {write : Int → Except ε (List Char)} {value : Option Int} {cs : List Char}
    (h : renderField lift write value = .ok (some cs)) :
    ∃ x, value = some x ∧ write x = .ok cs := by
  cases value with
  | none => cases h
  | some x =>
      rw [renderField] at h
      split at h
      · rename_i text hwrite
        cases h
        exact ⟨x, rfl, hwrite⟩
      · cases h

theorem render_numeral {n : Numeral} {cs : List Char}
    (h : (Leaf.numeral n).render st v = .ok (some cs)) :
    ∃ x, v.field n.field = some x ∧ n.render st.symbols x = .ok cs :=
  renderField_eq_ok_some h

theorem render_fraction {n : Fraction} {cs : List Char}
    (h : (Leaf.fraction n).render st v = .ok (some cs)) :
    ∃ x, v.field n.field = some x ∧ n.render st.symbols x = .ok cs :=
  renderField_eq_ok_some h

/-- A leaf that is not an offset writes its text or nothing. -/
theorem render_of_print {l : Leaf} (hl : ∀ o, l ≠ .offset o) {buffer written : List Char}
    (h : l.print st v buffer = (written, .ok true)) :
    ∃ cs, l.render st v = .ok (some cs) ∧ written = buffer ++ cs := by
  rcases hr : l.render st v with e | _ | cs
  · have hp : l.print st v buffer = (buffer, .error e) := by
      cases l with
      | offset o => exact absurd rfl (hl o)
      | _ => simp only [print, hr]
    simp [hp] at h
  · have hp : l.print st v buffer = (buffer, .ok false) := by
      cases l with
      | offset o => exact absurd rfl (hl o)
      | _ => simp only [print, hr]
    simp [hp] at h
  · have hp : l.print st v buffer = (buffer ++ cs, .ok true) := by
      cases l with
      | offset o => exact absurd rfl (hl o)
      | _ => simp only [print, hr]
    rw [hp, Prod.mk.injEq] at h
    exact ⟨cs, rfl, h.1.symm⟩

end Leaf

namespace Node

theorem written_of_printAllWith {expand : Node → List Char → Printed} {st : Settings}
    {v : Components} {ls : List Leaf} (hls : ∀ l ∈ ls, ∀ o, l ≠ .offset o)
    {buffer written : List Char}
    (h : printAllWith expand st v (ls.map leaf) buffer = (written, .ok true)) :
    ∃ text, Leaf.Written st v ls text ∧ written = buffer ++ text := by
  induction ls generalizing buffer with
  | nil =>
      cases h
      exact ⟨[], .nil, (List.append_nil _).symm⟩
  | cons l ls ih =>
      rw [List.map_cons, printAllWith, printWith] at h
      rcases hp : l.print st v buffer with ⟨before, e | _ | _⟩
      · simp [hp] at h
      · simp [hp] at h
      · rw [hp] at h
        obtain ⟨cs, hcs, rfl⟩ := Leaf.render_of_print (hls l (by simp)) hp
        obtain ⟨text, htext, rfl⟩ := ih (fun m hm => hls m (by simp [hm])) h
        exact ⟨cs ++ text, .cons hcs htext, List.append_assoc _ _ _⟩

end Node

namespace RowPart

variable {st : Settings} {v : Components}

def field? : RowPart → Option Field
  | literal _ _ => none
  | number _ n => some n.field

/-- Parts in front of which an anchor may stand: joined numbers up to the end or to a literal that
does not start with a digit. -/
def ClosesRun (s : Symbols) : List RowPart → Prop
  | [] => True
  | literal c _ :: _ => s.digit? c = none
  | number .joined _ :: parts => ClosesRun s parts
  | number _ _ :: _ => False

/-- Parts of which each anchor may stand where it does. -/
def Separated (s : Symbols) : List RowPart → Prop
  | [] => True
  | number .anchor _ :: parts => ClosesRun s parts ∧ Separated s parts
  | _ :: parts => Separated s parts

/-- A part that writes nothing of a value that cannot be recovered. -/
def Recovers (v : Components) : RowPart → Prop
  | literal _ _ => True
  | number _ n => ∀ x ∈ v.field n.field, n.Recovers x

theorem leaves_not_offset (anchored : Bool) (parts : List RowPart) :
    ∀ l ∈ leaves anchored parts, ∀ o, l ≠ .offset o := by
  induction parts generalizing anchored with
  | nil => simp [leaves]
  | cons part parts ih =>
      intro l hl
      cases part with
      | literal c cs =>
          rcases List.mem_cons.1 hl with rfl | hl
          · simp
          · exact ih false l hl
      | number place n =>
          rcases List.mem_cons.1 hl with rfl | hl
          · simp
          · exact ih _ l hl

/-- The text of the parts that an anchor may stand in front of starts with as many digits as it
leaves, and no more. -/
theorem length_digitRun_of_closesRun (hs : st.symbols.Legible) {anchored : Bool}
    {parts : List RowPart} (hvalid : ∀ part ∈ parts, part.Valid)
    (hclose : ClosesRun st.symbols parts) {text : List Char}
    (hw : Leaf.Written st v (leaves anchored parts) text) {limit : Nat}
    (hlimit : joinedWidth parts ≤ limit) :
    (st.symbols.digitRun limit text).length = joinedWidth parts := by
  induction parts generalizing anchored text limit with
  | nil =>
      cases hw
      have hend : st.symbols.EndsDigits [] := by
        rintro c ⟨⟩
      rw [Symbols.digitRun_of_endsDigits hend]
      rfl
  | cons part parts ih =>
      rw [List.forall_mem_cons] at hvalid
      obtain ⟨hn, hvalid⟩ := hvalid
      rcases part with ⟨c, cs⟩ | ⟨_ | _ | _, n⟩
      · obtain ⟨written, rest, hl, hls, rfl⟩ := hw.exists_of_cons
        cases hl
        have hend : st.symbols.EndsDigits (c :: cs ++ rest) := by
          rintro d ⟨⟩
          exact hclose
        rw [Symbols.digitRun_of_endsDigits hend]
        rfl
      · exact hclose.elim
      · obtain ⟨written, rest, hl, hls, rfl⟩ := hw.exists_of_cons
        obtain ⟨x, -, hx⟩ := Leaf.render_numeral hl
        rw [Place.render_put hn] at hx
        obtain ⟨ds, hds, hlen, rfl⟩ :=
          Numeral.render_of_notNegative hs (hn.width_eq nofun) (hn.sign_eq rfl) hx
        rw [joinedWidth] at hlimit
        obtain ⟨k, rfl⟩ : ∃ k, limit = ds.length + k := ⟨limit - ds.length, by omega⟩
        rw [Symbols.digitRun_append hs hds, List.length_append, joinedWidth, hlen,
          ih hvalid hclose hls (by omega)]
      · exact hclose.elim

theorem Separated.tail {s : Symbols} {part : RowPart} {parts : List RowPart}
    (h : Separated s (part :: parts)) : Separated s parts := by
  rcases part with ⟨c, cs⟩ | ⟨_ | _ | _, n⟩
  · exact h
  · exact h.2
  · exact h
  · exact h

theorem isSome_of_written {anchored : Bool} {parts : List RowPart}
    (hvalid : ∀ part ∈ parts, part.Valid) {text : List Char}
    (hw : Leaf.Written st v (leaves anchored parts) text) :
    ∀ f ∈ parts.filterMap field?, (v.field f).isSome := by
  induction parts generalizing anchored text with
  | nil => simp
  | cons part parts ih =>
      rw [List.forall_mem_cons] at hvalid
      obtain ⟨hn, hvalid⟩ := hvalid
      cases part with
      | literal c cs =>
          obtain ⟨written, rest, -, hls, rfl⟩ := hw.exists_of_cons
          exact ih hvalid hls
      | number place n =>
          obtain ⟨written, rest, hl, hls, rfl⟩ := hw.exists_of_cons
          obtain ⟨x, hfield, -⟩ := Leaf.render_numeral hl
          rw [Place.field_put hn] at hfield
          intro f hf
          rcases List.mem_cons.1 hf with rfl | hf
          · rw [hfield]
            rfl
          · exact ih hvalid hls f hf

/-- A number in its place is read back in front of what it leaves, and its field joins those that
were read. -/
theorem parseWith_put (hs : st.symbols.Legible) (expand : Node → Context → List Char → Parsed)
    {place : Place} {n : Numeral} (hn : n.StandsAs place) (hv : (number place n).Recovers v)
    {anchored : Bool} {width : Nat} {written rest : List Char}
    (hl : Leaf.render st v (.numeral (place.put anchored width n)) = .ok (some written))
    (hleaves : (place.put anchored width n).Leaves st.symbols rest) {c : Context}
    (hstrict : c.mode.strict = true) {fields : List Field} (hc : c.current = v.restrict fields) :
    Node.parseWith expand st (.leaf (.numeral (place.put anchored width n))) c (written ++ rest) =
      ({ c with current := v.restrict (fields ++ [n.field]) }, .ok rest) := by
  obtain ⟨x, hfield, hx⟩ := Leaf.render_numeral hl
  have hold : ∀ old ∈ c.current.field (place.put anchored width n).field, old = x := by
    intro old hold
    rw [hc, Option.mem_def] at hold
    exact Option.some.inj ((Components.field_of_restrict hold).symm.trans hfield)
  have hvalue : n.Recovers x := by
    rw [Place.field_put hn] at hfield
    exact hv x hfield
  rw [Node.parseWith_numeral hs (Place.wellSized_put hn anchored width)
    (Place.recovers_put hn anchored width hvalue) hx hleaves hstrict hold, hc,
    Components.set_restrict hfield, Place.field_put hn]

/-- What was written for parts is read back. Induction on the parts: what was read so far are the
values of the fields so far. -/
theorem parseAllWith_written (hs : st.symbols.Legible)
    (expand : Node → Context → List Char → Parsed) {anchored : Bool} {parts : List RowPart}
    (hvalid : ∀ part ∈ parts, part.Valid) (hv : ∀ part ∈ parts, part.Recovers v)
    (hsep : Separated st.symbols parts) {text : List Char}
    (hw : Leaf.Written st v (leaves anchored parts) text) {c : Context}
    (hstrict : c.mode.strict = true) (fields : List Field)
    (hc : c.current = v.restrict fields) :
    Node.parseAllWith expand st ((leaves anchored parts).map .leaf) c text =
      ({ c with current := v.restrict (fields ++ parts.filterMap field?) }, .ok []) := by
  induction parts generalizing anchored text c fields with
  | nil =>
      cases hw
      simp [leaves, Node.parseAllWith, ← hc]
  | cons part parts ih =>
      rw [List.forall_mem_cons] at hvalid hv
      obtain ⟨hn, hvalid⟩ := hvalid
      obtain ⟨hnv, hv⟩ := hv
      cases part with
      | literal ch cs =>
          obtain ⟨written, rest, hl, hls, rfl⟩ := hw.exists_of_cons
          cases hl
          rw [leaves, List.map_cons, Node.parseAllWith, Node.parseWith_literal]
          exact ih hvalid hv hsep.tail hls hstrict fields hc
      | number place n =>
          obtain ⟨written, rest, hl, hls, rfl⟩ := hw.exists_of_cons
          have hleaves :
              (place.put anchored (joinedWidth parts) n).Leaves st.symbols rest := by
            refine Place.leaves_put hn anchored ?_
            rintro rfl limit hlimit
            exact length_digitRun_of_closesRun hs hvalid hsep.1 hls hlimit
          rw [leaves, List.map_cons, Node.parseAllWith,
            parseWith_put hs expand hn hnv hl hleaves hstrict hc]
          have hrest := ih (c := { c with current := v.restrict (fields ++ [n.field]) }) hvalid hv
            hsep.tail hls hstrict _ rfl
          simpa [field?] using hrest

end RowPart

namespace NumberStep

variable {v : Components}

/-- A step that writes values which can be recovered: without a sign they are not negative, and of
reduced ones the base is above zero and they lie in its window. -/
def Recovers (v : Components) : NumberStep → Prop
  | valueWith f _ _ .never => ∀ x ∈ v.field f, 0 ≤ x
  | reduced f width base => 0 < base ∧ ∀ x ∈ v.field f, base ≤ x ∧ x < base + tenPow width
  | _ => True

theorem field?_part (x : NumberStep) : x.part.field? = x.field? := by
  cases x <;> rfl

theorem recovers_part (hfits : ∀ f, ∀ x ∈ v.field f, FitsInt64 x) {step : NumberStep}
    (h : step.Recovers v) : step.part.Recovers v := by
  cases step with
  | literal c cs => trivial
  | value f =>
      intro x hx
      exact ⟨hfits f x hx, nofun, nofun⟩
  | fixed f width =>
      intro x hx
      exact ⟨hfits f x hx, nofun, nofun⟩
  | valueWith f minWidth maxWidth sign =>
      intro x hx
      refine ⟨hfits f x hx, ?_, nofun⟩
      rintro rfl
      exact h x hx
  | reduced f width base =>
      intro x hx
      refine ⟨hfits f x hx, nofun, ?_⟩
      rintro w ⟨⟩
      obtain ⟨hbase, hwindow⟩ := h
      exact ⟨hbase, hwindow x hx⟩

end NumberStep

namespace Formatter

theorem printAllWith_of_format {f : Formatter} {v : Components} {text : List Char}
    (h : f.format v = .ok text) :
    Node.printAllWith (Node.printTo f.settings v 0) f.settings v f.nodes [] = (text, .ok true) := by
  have hroot : f.root.print f.settings v [] = (text, .ok true) := by
    unfold format formatTo at h
    rcases hp : f.root.print f.settings v [] with ⟨written, e | _ | _⟩
    · simp [hp] at h
    · simp [hp] at h
    · simp only [hp, Except.ok.injEq] at h
      rw [h]
  rw [root, Node.print, Node.printTo, Node.printWith] at hroot
  rcases hall : Node.printAllWith (Node.printTo f.settings v 0) f.settings v f.nodes [] with
    ⟨written, e | _ | _⟩
  · simp [hall] at hroot
  · simp [hall] at hroot
  · simpa [hall] using hroot

/-- A formatter that is built of numbers and literals reads the whole of what it has written, and
finds the values of its fields. -/
theorem parseAt_format_of_numbers {list : List NumberStep} {b : Builder}
    (hb : Builder.new.steps (list.map NumberStep.toStep) = .ok b) {st : Settings}
    (hs : st.symbols.Legible)
    (hsep : RowPart.Separated st.symbols (list.map NumberStep.part)) {v : Components}
    (hfits : ∀ f, ∀ x ∈ v.field f, FitsInt64 x) (hv : ∀ x ∈ list, x.Recovers v)
    {text : List Char} (h : Formatter.format ⟨b.nodes, st⟩ v = .ok text)
    (errorIndex : Option Nat) :
    Formatter.parseAt ⟨b.nodes, st⟩ text ⟨0, errorIndex⟩ =
        (some (v.restrict (list.filterMap NumberStep.field?)),
          ⟨byteLength text, errorIndex⟩) ∧
      ∀ f ∈ list.filterMap NumberStep.field?, (v.field f).isSome := by
  obtain ⟨hvalid, hnodes⟩ := Builder.nodes_of_number_steps hb
  have hprint := printAllWith_of_format h
  rw [hnodes] at hprint
  obtain ⟨written, hw, rfl⟩ :=
    Node.written_of_printAllWith (RowPart.leaves_not_offset false _) hprint
  have hfields : (list.map NumberStep.part).filterMap RowPart.field? =
      list.filterMap NumberStep.field? := by
    rw [List.filterMap_map]
    exact congrArg (List.filterMap · list) (funext NumberStep.field?_part)
  have hvalid' : ∀ part ∈ list.map NumberStep.part, part.Valid := by
    simpa using hvalid
  have hv' : ∀ part ∈ list.map NumberStep.part, part.Recovers v := by
    simpa using fun x hx => NumberStep.recovers_part hfits (hv x hx)
  have hempty : Context.initial.current = v.restrict [] := by
    simp [Components.restrict, Context.initial, Components.empty]
  have hsome := RowPart.isSome_of_written hvalid' hw
  have hparse := RowPart.parseAllWith_written hs (Node.parseTo st 0) hvalid' hv' hsep hw rfl []
    hempty
  rw [hfields] at hparse hsome
  refine ⟨?_, hsome⟩
  have hroot : (Formatter.root ⟨b.nodes, st⟩).parse st .initial text =
      ({ Context.initial with current := v.restrict (list.filterMap NumberStep.field?) },
        .ok []) := by
    rw [root, Node.parse, Node.parseTo, Node.parseWith, hnodes, hparse]
    rfl
  simp [parseAt, parseStart, hroot]

theorem parseAt_format_of_numbers_joined :
    let list : List NumberStep := [
      .valueWith .year 4 10 .exceedsPad, .fixed .monthOfYear 2, .reduced .dayOfMonth 2 1,
      .literal 'T' [], .valueWith .hourOfDay 1 2 .always, .literal '-' [],
      .valueWith .minuteOfHour 1 3 .never]
    let st : Settings := { Settings.root with symbols := ⟨'\u0660', '+', '-', '.'⟩ }
    let v := ((((Components.empty.set .year 12011).set .monthOfYear 6).set .dayOfMonth 30).set
      .hourOfDay 13).set .minuteOfHour 0
    let text := [
      '+', '\u0661', '\u0662', '\u0660', '\u0661', '\u0661', '\u0660', '\u0666', '\u0663', '\u0660',
      'T', '+', '\u0661', '\u0663', '-', '\u0660']
    ∃ b, Builder.new.steps (list.map NumberStep.toStep) = .ok b ∧ st.symbols.Legible ∧
      RowPart.Separated st.symbols (list.map NumberStep.part) ∧
      (∀ f, ∀ x ∈ v.field f, FitsInt64 x) ∧ (∀ x ∈ list, x.Recovers v) ∧
      Formatter.format ⟨b.nodes, st⟩ v = .ok text ∧
      Formatter.parseAt ⟨b.nodes, st⟩ text ⟨0, none⟩ = (some v, ⟨28, none⟩) := by
  intro list st v text
  have hs : st.symbols.Legible := ⟨by decide, by decide, by decide, by decide⟩
  have hsep : RowPart.Separated st.symbols (list.map NumberStep.part) :=
    ⟨rfl, rfl, trivial, trivial⟩
  have hfits : ∀ f, ∀ x ∈ v.field f, FitsInt64 x := by
    intro f x hx
    cases f <;> cases hx <;> decide
  have hv : ∀ x ∈ list, x.Recovers v := by
    simp [list, v, NumberStep.Recovers, tenPow]
  exact ⟨_, rfl, hs, hsep, hfits, hv, rfl,
    (@parseAt_format_of_numbers list _ rfl st hs hsep v hfits hv text rfl none).1.trans (by decide)⟩

end Formatter

end DateTimeText
