import DateTimeText.Proofs.Formatter.Reading
import DateTimeText.Proofs.Formatter.Writing
import DateTimeText.Proofs.Node.Canonical

/-!
# Formats of fixed widths

A formatter of fixed numbers, reduced numbers, fractions of a second and literals reads a text only
if it is the one that it writes for what it has read. So different texts are never read as the same
components.
-/

namespace DateTimeText

/-- A step of a builder that appends a fixed number of digits, or a literal. -/
inductive FixedStep
  | fixed (field : Field) (width : Nat)
  | reduced (field : Field) (width : Nat) (base : Int)
  | fraction (width : Nat)
  | literal (chars : List Char)

namespace FixedStep

def toStep : FixedStep → BuildStep
  | fixed f width => .fixed f width
  | reduced f width base => .reduced f width base
  | fraction width => .fraction .nanoOfSecond width width false
  | literal chars => .literal chars

/-- A step whose digits always fit 64 bits and whose base is above zero. -/
def Admissible : FixedStep → Prop
  | fixed _ width => width ≤ 18
  | reduced _ _ base => 0 < base
  | _ => True

/-- The leaves that a step appends. An empty literal appends none. -/
def leaves : FixedStep → List Leaf
  | fixed f width => [.numeral (.plain f width width .notNegative)]
  | reduced f width base =>
    [.numeral
      { Numeral.plain f width width .notNegative with window := some ⟨base, tenPow width⟩ }]
  | fraction width => [.fraction (.nanoDigits width)]
  | literal chars => if chars.isEmpty then [] else [.literal chars]

end FixedStep

namespace Builder

variable {b b' : Builder}

/-- Whether the next node is neither padded nor joined to an anchor. -/
def IsPlain (b : Builder) : Prop :=
  b.active.pendingPad = none ∧ b.active.anchor = none

/-- The builder with more leaves, none of which is an anchor. -/
def appendLeaves (b : Builder) (ls : List Leaf) : Builder :=
  b.mapActive fun sc => ⟨sc.nodes ++ ls.map .leaf, none, none⟩

theorem isPlain_appendLeaves (b : Builder) (ls : List Leaf) : (b.appendLeaves ls).IsPlain :=
  ⟨rfl, rfl⟩

theorem appendLeaves_append (b : Builder) (ls ls' : List Leaf) :
    (b.appendLeaves ls).appendLeaves ls' = b.appendLeaves (ls ++ ls') := by
  simp [appendLeaves, mapActive]

theorem IsPlain.appendLeaves_nil (hb : b.IsPlain) : b.appendLeaves [] = b := by
  obtain ⟨⟨nodes, anchor, pendingPad⟩, enclosing, texts⟩ := b
  obtain ⟨rfl, rfl⟩ : pendingPad = none ∧ anchor = none := hb
  simp [appendLeaves, mapActive]

theorem IsPlain.append_leaf (hb : b.IsPlain) (l : Leaf) :
    b.append (.leaf l) = b.appendLeaves [l] :=
  congrArg (fun sc => { b with active := sc }) (Scope.push_of_unpadded hb.1 (.leaf l))

theorem IsPlain.pushFixed (hb : b.IsPlain) (width : Nat) (n : Numeral) :
    b.mapActive (·.pushFixed width n) = b.appendLeaves [.numeral n] :=
  congrArg (fun sc => { b with active := sc }) (Scope.pushFixed_of_no_anchor hb.1 hb.2 width n)

/-- A step appends leaves that write what they read. -/
theorem IsPlain.step_fixedStep (hb : b.IsPlain) {x : FixedStep} (hx : x.Admissible)
    (h : b.step x.toStep = .ok b') :
    b' = b.appendLeaves x.leaves ∧
      ∀ st : Settings, st.symbols.Legible → ∀ l ∈ x.leaves, l.Canonical st := by
  cases x with
  | fixed f width =>
      obtain ⟨hwidth, rfl⟩ := appendFixed_eq_ok h
      refine ⟨hb.pushFixed width _, fun st hs => List.forall_mem_singleton.2 ?_⟩
      exact Leaf.canonical_numeral hs
        ⟨hwidth.1, hx, rfl, rfl, rfl, rfl, nofun⟩
  | reduced f width base =>
      obtain ⟨hwidth, rfl⟩ := appendReduced_eq_ok h
      refine ⟨hb.pushFixed width _, fun st hs => List.forall_mem_singleton.2 ?_⟩
      refine Leaf.canonical_numeral hs ⟨hwidth.1, hwidth.2, rfl, rfl, rfl, rfl, ?_⟩
      rintro w ⟨⟩
      exact ⟨hx, rfl⟩
  | fraction width =>
      obtain ⟨hsized, rfl⟩ := appendFraction_eq_ok h
      refine ⟨hb.append_leaf _, fun st hs => List.forall_mem_singleton.2 ?_⟩
      exact Leaf.canonical_fraction hs hsized.one_le_maxWidth hsized.maxWidth_le
  | literal chars =>
      cases h
      rw [appendLiteral, FixedStep.leaves]
      split
      · exact ⟨hb.appendLeaves_nil.symm, fun _ _ _ hl => absurd hl List.not_mem_nil⟩
      · exact ⟨hb.append_leaf _, fun st _ => List.forall_mem_singleton.2
          (Leaf.canonical_literal chars)⟩

theorem IsPlain.steps_fixedStep (hb : b.IsPlain) {list : List FixedStep}
    (hlist : ∀ x ∈ list, x.Admissible) (h : b.steps (list.map FixedStep.toStep) = .ok b') :
    b' = b.appendLeaves (list.flatMap FixedStep.leaves) ∧
      ∀ st : Settings, st.symbols.Legible →
        ∀ l ∈ list.flatMap FixedStep.leaves, l.Canonical st := by
  induction list generalizing b with
  | nil =>
      cases h
      exact ⟨hb.appendLeaves_nil.symm, fun _ _ _ hl => absurd hl List.not_mem_nil⟩
  | cons x list ih =>
      rw [List.forall_mem_cons] at hlist
      rw [steps, List.map_cons, List.foldlM_cons] at h
      cases hx : b.step x.toStep with
      | error e =>
          rw [hx] at h
          cases h
      | ok after =>
          rw [hx] at h
          obtain ⟨rfl, hleaves⟩ := hb.step_fixedStep hlist.1 hx
          obtain ⟨rfl, hrest⟩ := ih (b.isPlain_appendLeaves _) hlist.2 h
          rw [appendLeaves_append, List.flatMap_cons]
          refine ⟨rfl, fun st hs l hl => ?_⟩
          rcases List.mem_append.1 hl with hl | hl
          · exact hleaves st hs l hl
          · exact hrest st hs l hl

end Builder

namespace Formatter

/-- Canonical leaves write the whole of a text that they have read. -/
theorem format_of_parse {f : Formatter} {ls : List Leaf} (hnodes : f.nodes = ls.map .leaf)
    (hls : ∀ l ∈ ls, l.Canonical f.settings) {text : List Char} {v : Components}
    (h : f.parse text = .ok v) : f.format v = .ok text := by
  obtain ⟨⟨after, hread, rfl⟩, -⟩ := parse_eq_ok_iff.1 h
  rw [hnodes] at hread
  obtain ⟨cs, htext, hwritten⟩ := Node.written_of_parseAllWith hls rfl hread
  rw [List.append_nil] at htext
  rw [htext]
  refine format_of_render (Node.renderWith_group ?_ false)
  rw [hnodes]
  exact Node.renderAllWith_written hwritten

/-- A formatter that is built of fixed numbers, reduced numbers, fractions of a second and literals
writes the text again that it has read, so it never reads two texts as the same components. -/
theorem format_parse_of_fixed_widths {list : List FixedStep} (hlist : ∀ x ∈ list, x.Admissible)
    {b : Builder} (hb : Builder.new.steps (list.map FixedStep.toStep) = .ok b) {st : Settings}
    (hs : st.symbols.Legible) :
    (∀ text v, Formatter.parse ⟨b.nodes, st⟩ text = .ok v →
      Formatter.format ⟨b.nodes, st⟩ v = .ok text) ∧
    ∀ text text' v, Formatter.parse ⟨b.nodes, st⟩ text = .ok v →
      Formatter.parse ⟨b.nodes, st⟩ text' = .ok v → text = text' := by
  have hplain : Builder.new.IsPlain := ⟨rfl, rfl⟩
  obtain ⟨rfl, hleaves⟩ := hplain.steps_fixedStep hlist hb
  have hwrites : ∀ text v, Formatter.parse ⟨_, st⟩ text = .ok v →
      Formatter.format ⟨(Builder.new.appendLeaves _).nodes, st⟩ v = .ok text :=
    fun text v => format_of_parse rfl (hleaves st hs)
  refine ⟨hwrites, fun text text' v h h' => ?_⟩
  exact Except.ok.inj ((hwrites text v h).symm.trans (hwrites text' v h'))

/-- The year and the second are read twice, in different widths. -/
theorem format_parse_of_fixed_widths_twice :
    let list : List FixedStep := [
      .reduced .year 2 1950, .literal ['1'], .fixed .year 4, .literal [], .fraction 3,
      .fixed .nanoOfSecond 9]
    let text := ['5', '1', '1', '1', '9', '5', '1', '1', '2', '0', '1', '2', '0', '0', '0', '0', '0',
      '0', '0']
    ∃ b v, Builder.new.steps (list.map FixedStep.toStep) = .ok b ∧ (∀ x ∈ list, x.Admissible) ∧
      Settings.root.symbols.Legible ∧ Formatter.parse ⟨b.nodes, .root⟩ text = .ok v ∧
      (v.field .year = some 1951 ∧ v.field .nanoOfSecond = some 120000000) ∧
      Formatter.format ⟨b.nodes, .root⟩ v = .ok text := by
  intro list text
  have hlist : ∀ x ∈ list, x.Admissible := by
    simp [list, FixedStep.Admissible]
  have hs : Settings.root.symbols.Legible := Symbols.standard_legible
  obtain ⟨b, v, hb, hparse, hfields⟩ : ∃ b v, Builder.new.steps (list.map FixedStep.toStep) = .ok b ∧
      Formatter.parse ⟨b.nodes, .root⟩ text = .ok v ∧
      v.field .year = some 1951 ∧ v.field .nanoOfSecond = some 120000000 :=
    ⟨_, _, rfl, rfl, rfl, rfl⟩
  exact ⟨b, v, hb, hlist, hs, hparse, hfields,
    (format_parse_of_fixed_widths hlist hb hs).1 text v hparse⟩

end Formatter

end DateTimeText
