import DateTimeText.Builder.Step
import DateTimeText.Proofs.Builder.Numbers
import Mathlib.Logic.Relation

/-!
# Changes of a builder

A step that is not refused is a row of changes: a node is appended to the active section, the next
node is to be padded, a section is opened or ends, or the texts are replaced. What each of these
changes keeps is kept by all steps, and by all items of a pattern.
-/

namespace DateTimeText

namespace Numeral

/-- A number of variable width that leaves no digits yet. -/
structure IsVariable (n : Numeral) : Prop where
  adjacency_eq : n.adjacency = .reserves 0
  window_eq : n.window = none
  minWidth_lt : n.minWidth < n.maxWidth

/-- A number of fixed width that is not in a row of digits yet. -/
structure IsFixed (n : Numeral) : Prop where
  adjacency_eq : n.adjacency = .reserves 0
  width_eq : n.minWidth = n.maxWidth

end Numeral

/-- The digits that a leaf leaves to the nodes after it. -/
def Leaf.reserved : Leaf → Nat
  | numeral n => n.reserved
  | _ => 0

/-- What a section may become when a node is appended to it: a leaf, or a node with `Q`. -/
inductive Scope.Grows (Q : Node → Prop) (sc : Scope) : Scope → Prop
  | leaf (l : Leaf) (h : l.reserved = 0) : Grows Q sc (sc.push (.leaf l))
  | node (node : Node) (h : Q node) : Grows Q sc (sc.push node)
  | anchor (n : Numeral) (h : n.IsVariable) : Grows Q sc (sc.pushAnchor n)
  | joined (n : Numeral) (h : n.IsFixed) : Grows Q sc (sc.pushFixed n.minWidth n)

/-- The node that a step appends if it is not a leaf. -/
def BuildStep.appended? (texts : TextSource) : BuildStep → Option Node
  | .mode change => some (.mode change)
  | .instant => some .instant
  | .localized date time => some (.localized ⟨date, time, texts⟩)
  | .group nodes optional => some (.group nodes optional)
  | _ => none

namespace Builder

variable {Q : Node → Prop} {b after : Builder}

/-- A node is appended to the active section, and the sections around it stay as they are. -/
structure Grows (Q : Node → Prop) (b after : Builder) : Prop where
  active : b.active.Grows Q after.active
  enclosing_eq : after.enclosing = b.enclosing

inductive Change (Q : Node → Prop) (b : Builder) : Builder → Prop
  | grow {after : Builder} (h : b.Grows Q after) : Change Q b after
  | pad (width : Nat) (fill : Char) :
    Change Q b (b.mapActive fun sc => ⟨sc.nodes, none, some (width, fill)⟩)
  | openSection : Change Q b b.startOptional
  | closeSection (outer : Scope) (rest : List Scope) (h : b.enclosing = outer :: rest) :
    Change Q b { b with active := b.active.close outer, enclosing := rest }
  | texts (source : TextSource) : Change Q b (b.setTexts source)

def Changes (Q : Node → Prop) : Builder → Builder → Prop :=
  Relation.ReflTransGen (Change Q)

theorem Changes.refl (b : Builder) : Changes Q b b :=
  Relation.ReflTransGen.refl

theorem Changes.trans {between : Builder} (h : Changes Q b between)
    (h' : Changes Q between after) : Changes Q b after :=
  Relation.ReflTransGen.trans h h'

theorem Change.changes (h : Change Q b after) : Changes Q b after :=
  Relation.ReflTransGen.single h

theorem Grows.changes (h : b.Grows Q after) : Changes Q b after :=
  (Change.grow h).changes

/-- What every change keeps is kept by rows of changes. -/
theorem Changes.keeps {P : Builder → Prop}
    (hstep : ∀ {b after : Builder}, Change Q b after → P b → P after)
    (h : Changes Q b after) (hb : P b) : P after := by
  induction h with
  | refl => exact hb
  | tail _ hlast ih => exact hstep hlast ih

/-! ### Steps that append one node -/

theorem grows_append {node : Node} (h : Q node) : b.Grows Q (b.append node) :=
  ⟨.node node h, rfl⟩

theorem grows_appendLeaf {l : Leaf} (h : l.reserved = 0) : b.Grows Q (b.append (.leaf l)) :=
  ⟨.leaf l h, rfl⟩

theorem grows_appendText (f : Field) (style : TextStyle) : b.Grows Q (b.appendText f style) :=
  grows_appendLeaf rfl

theorem grows_appendValue (f : Field) : b.Grows Q (b.appendValue f) :=
  ⟨.anchor _ ⟨rfl, rfl, show 1 < maxDigits by decide⟩, rfl⟩

theorem Grows.of_appendFixed {f : Field} {width : Nat} (h : b.appendFixed f width = .ok after) :
    b.Grows Q after := by
  obtain ⟨-, rfl⟩ := appendFixed_eq_ok h
  exact ⟨.joined (.plain f width width .notNegative) ⟨rfl, rfl⟩, rfl⟩

theorem Grows.of_appendValueWith {f : Field} {minWidth maxWidth : Nat} {sign : SignStyle}
    (h : b.appendValueWith f minWidth maxWidth sign = .ok after) : b.Grows Q after := by
  obtain ⟨hvalid, rfl⟩ := appendValueWith_eq_ok h
  refine ⟨?_, rfl⟩
  simp only [NumberStep.part, RowPart.Valid] at hvalid ⊢
  by_cases hlt : minWidth < maxWidth
  · simp only [hlt, if_true]
    exact .anchor _ ⟨rfl, rfl, hlt⟩
  · simp only [hlt, if_false] at hvalid ⊢
    by_cases hsign : sign = .notNegative
    · simp only [hsign, if_true] at hvalid ⊢
      exact .joined (.plain f minWidth maxWidth .notNegative) ⟨rfl, hvalid.width_eq (by simp)⟩
    · simp only [hsign, if_false]
      exact .leaf _ rfl

theorem Grows.of_appendReduced {f : Field} {width : Nat} {base : Int}
    (h : b.appendReduced f width base = .ok after) : b.Grows Q after := by
  unfold appendReduced at h
  cases hn : Numeral.reduced f width base with
  | error e =>
      rw [hn] at h
      cases h
  | ok n =>
      rw [hn] at h
      cases h
      obtain ⟨-, rfl⟩ := Numeral.reduced_eq_ok hn
      exact ⟨.joined _ ⟨rfl, rfl⟩, rfl⟩

theorem Grows.of_appendFraction {f : Field} {minWidth maxWidth : Nat} {decimalPoint : Bool}
    (h : b.appendFraction f minWidth maxWidth decimalPoint = .ok after) : b.Grows Q after := by
  unfold appendFraction at h
  cases hn : Fraction.of f minWidth maxWidth decimalPoint with
  | error e =>
      rw [hn] at h
      cases h
  | ok n =>
      rw [hn] at h
      cases h
      exact grows_appendLeaf rfl

/-! ### Items of patterns -/

theorem eq_ok_of_letterWidth_bind {count : Nat} {k : Nat → Except ConfigurationError Builder}
    (h : (letterWidth count >>= k) = .ok after) : k count = .ok after := by
  unfold letterWidth at h
  split at h
  · cases h
  · exact h

theorem Grows.of_appendYear {count : Nat} (h : b.appendYear count = .ok after) :
    b.Grows Q after := by
  unfold appendYear at h
  split at h
  · exact .of_appendReduced h
  · exact .of_appendValueWith (eq_ok_of_letterWidth_bind h)

theorem Grows.of_appendNumberOrText {letter : Char} {f : Field} {count : Nat}
    (h : b.appendNumberOrText letter f count = .ok after) : b.Grows Q after := by
  unfold appendNumberOrText at h
  split at h
  · cases h
    exact grows_appendValue f
  · exact .of_appendFixed h
  · cases h
    exact grows_appendText f _
  · cases h
    exact grows_appendText f _
  · cases h
    exact grows_appendText f _
  · cases h

theorem Grows.of_appendHalfDay {letter : Char} {f : Field} {count : Nat}
    (h : b.appendHalfDay letter f count = .ok after) : b.Grows Q after := by
  unfold appendHalfDay at h
  split at h
  · cases h
    exact grows_appendText f _
  split at h
  · cases h
    exact grows_appendText f _
  split at h
  · cases h
    exact grows_appendText f _
  · cases h

theorem Grows.of_appendField {letter : Char} {f : Field} {count : Nat}
    (h : b.appendField letter f count = .ok after) : b.Grows Q after := by
  unfold appendField at h
  split at h
  · exact .of_appendYear h
  split at h
  · exact .of_appendNumberOrText h
  split at h
  · exact .of_appendHalfDay h
  split at h
  · exact .of_appendFraction (eq_ok_of_letterWidth_bind h)
  split at h
  · cases h
    exact grows_appendValue f
  · exact .of_appendFixed (eq_ok_of_letterWidth_bind h)

/-- A run of letters appends one node, and it is a leaf. -/
theorem Grows.of_appendLetters {letter : Char} {count : Nat}
    (h : b.appendLetters letter count = .ok after) : b.Grows Q after := by
  unfold appendLetters at h
  split at h
  · exact .of_appendField h
  split at h
  · split at h
    · cases h
    · cases h
      exact grows_appendLeaf rfl
  split at h
  · split at h
    · cases h
    · cases h
      exact grows_appendLeaf rfl
  split at h
  · split at h
    · cases h
    · cases h
      exact grows_appendLeaf rfl
  split at h
  · split at h
    · cases h
    · cases h
      exact grows_appendLeaf rfl
  · cases h

theorem changes_appendLiteral (text : List Char) : Changes Q b (b.appendLiteral text) := by
  unfold appendLiteral
  split
  · exact .refl b
  · apply Grows.changes
    exact grows_appendLeaf rfl

theorem Changes.of_padNext {width : Nat} {fill : Char} (h : b.padNext width fill = .ok after) :
    Changes Q b after := by
  unfold padNext at h
  split at h
  · cases h
  · cases h
    exact (Change.pad width fill).changes

theorem Changes.of_endOptional (h : b.endOptional = .ok after) : Changes Q b after := by
  unfold endOptional at h
  split at h
  · cases h
  · rename_i outer rest henclosing
    cases h
    exact (Change.closeSection outer rest henclosing).changes

theorem Changes.of_applyItem {item : PatternItem} (h : b.applyItem item = .ok after) :
    Changes Q b after := by
  cases item with
  | letters letter count => exact (Grows.of_appendLetters h).changes
  | pad width => exact .of_padNext h
  | literal text =>
      cases h
      exact changes_appendLiteral text
  | optionalStart =>
      cases h
      exact Change.openSection.changes
  | optionalEnd =>
      simp only [applyItem] at h
      cases he : b.endOptional with
      | error e => simp [he] at h
      | ok ended =>
          obtain rfl : ended = after := by simpa [he] using h
          exact .of_endOptional he

theorem Changes.of_applyItems {items : List PatternItem}
    (h : items.foldlM applyItem b = .ok after) : Changes Q b after := by
  induction items generalizing b with
  | nil =>
      cases h
      exact .refl _
  | cons item items ih =>
      rw [List.foldlM_cons] at h
      cases hi : b.applyItem item with
      | error e =>
          rw [hi] at h
          cases h
      | ok next =>
          rw [hi] at h
          exact (Changes.of_applyItem hi).trans (ih h)

theorem Changes.of_appendPattern {pattern : List Char} (h : b.appendPattern pattern = .ok after) :
    Changes Q b after := by
  unfold appendPattern at h
  cases hp : PatternItem.parseAll pattern with
  | error e =>
      rw [hp] at h
      cases h
  | ok items =>
      rw [hp] at h
      exact .of_applyItems h

/-! ### All steps -/

theorem changes_closeAll (b : Builder) : Changes Q b b.closeAll := by
  obtain ⟨active, enclosing, texts⟩ := b
  induction enclosing generalizing active with
  | nil => exact .refl _
  | cons outer rest ih =>
      exact (Change.closeSection outer rest rfl).changes.trans (ih (active.close outer))

/-- A step that is not refused is a row of changes, if the node that it appends has `Q` unless it
is a leaf. -/
theorem Changes.of_step {s : BuildStep} (hQ : ∀ node, s.appended? b.texts = some node → Q node)
    (h : b.step s = .ok after) : Changes Q b after := by
  cases s with
  | value f =>
      cases h
      exact (grows_appendValue f).changes
  | fixed f width => exact (Grows.of_appendFixed h).changes
  | valueWith f minWidth maxWidth sign => exact (Grows.of_appendValueWith h).changes
  | reduced f width base => exact (Grows.of_appendReduced h).changes
  | fraction f minWidth maxWidth decimalPoint => exact (Grows.of_appendFraction h).changes
  | literal chars =>
      cases h
      exact changes_appendLiteral chars
  | pattern chars => exact .of_appendPattern h
  | pad width fill => exact .of_padNext h
  | startOptional =>
      cases h
      exact Change.openSection.changes
  | endOptional => exact .of_endOptional h
  | closeAll =>
      cases h
      exact changes_closeAll b
  | texts source =>
      cases h
      exact (Change.texts source).changes
  | localized date time =>
      rw [step, appendLocalized] at h
      split at h
      · cases h
      · cases h
        exact (grows_append (hQ _ rfl)).changes
  | mode change =>
      cases h
      exact (grows_append (hQ _ rfl)).changes
  | instant =>
      cases h
      exact (grows_append (hQ _ rfl)).changes
  | group nodes optional =>
      cases h
      exact (grows_append (hQ _ rfl)).changes
  | text f style =>
      cases h
      exact (grows_appendText f style).changes
  | lookup | offset | zone | zoneText | chronology =>
      cases h
      apply Grows.changes
      exact grows_appendLeaf rfl

end Builder

end DateTimeText
