import DateTimeText.Builder.Step
import DateTimeText.Proofs.Node.Numeral
import DateTimeText.Proofs.Node.SecondFraction

/-!
# Formats of numbers and literals

The nodes that a builder makes of numbers and literals alone. A number of variable width leaves the
digits of the numbers of fixed width that are joined to it, and those keep their widths.
-/

namespace DateTimeText

namespace Numeral

theorem wellSized_plain {f : Field} {minWidth maxWidth : Nat} {sign : SignStyle}
    (hone : 1 ≤ minWidth) (hle : minWidth ≤ maxWidth) (hmax : maxWidth ≤ maxDigits) :
    (plain f minWidth maxWidth sign).WellSized :=
  ⟨hone, hle, hmax⟩

theorem reserve_zero (n : Numeral) : n.reserve 0 = n := by
  obtain ⟨f, minWidth, maxWidth, sign, adjacency, window⟩ := n
  cases adjacency <;> rfl

theorem reserve_reserve (n : Numeral) (j k : Nat) :
    (n.reserve j).reserve k = n.reserve (j + k) := by
  obtain ⟨f, minWidth, maxWidth, sign, adjacency, window⟩ := n
  cases adjacency with
  | reserves i => simp [reserve, Nat.add_assoc]
  | fixed => rfl

/-- A reduced number has a width of up to 18 digits, a base in the range of its field and a window
that ends in 32 bits. -/
theorem reduced_eq_ok_iff {f : Field} {width : Nat} {base : Int} {n : Numeral} :
    reduced f width base = .ok n ↔
      (1 ≤ width ∧ width ≤ 18) ∧ base ∈ f.range ∧ base + tenPow width ≤ 2147483647 ∧
        { plain f width width .notNegative with window := some ⟨base, tenPow width⟩ } = n := by
  unfold reduced
  by_cases hwidth : width < 1 ∨ 18 < width
  · rw [if_pos hwidth]
    exact iff_of_false nofun fun h => by omega
  by_cases hbase : base ∉ f.range
  · rw [if_neg hwidth, if_pos hbase]
    exact iff_of_false nofun fun h => hbase h.2.1
  by_cases hwindow : 2147483647 < base + tenPow width
  · rw [if_neg hwidth, if_neg hbase, if_pos hwindow]
    exact iff_of_false nofun fun h => by omega
  rw [if_neg hwidth, if_neg hbase, if_neg hwindow, Except.ok.injEq]
  exact ⟨fun h => ⟨by omega, Decidable.not_not.1 hbase, by omega, h⟩, fun h => h.2.2.2⟩

theorem reduced_eq_ok {f : Field} {width : Nat} {base : Int} {n : Numeral}
    (h : reduced f width base = .ok n) :
    (1 ≤ width ∧ width ≤ 18) ∧
      n = { plain f width width .notNegative with window := some ⟨base, tenPow width⟩ } := by
  obtain ⟨hwidth, -, -, hn⟩ := reduced_eq_ok_iff.1 h
  exact ⟨hwidth, hn.symm⟩

end Numeral

/-- The place of a number in a row of digits. -/
inductive Place
  /-- A number of variable width. -/
  | anchor
  /-- A number of fixed width that has its digits left by the anchor before it. -/
  | joined
  /-- A number of fixed width that never has its digits left. -/
  | apart
deriving DecidableEq

namespace Place

/-- A number as it stands in its place, after an anchor or not and in front of numbers that are
joined to it with `width` digits. -/
def put (place : Place) (anchored : Bool) (width : Nat) (n : Numeral) : Numeral :=
  match place with
  | anchor => n.reserve width
  | joined => if anchored then n.asFixed else n
  | apart => n

def anchors (place : Place) (anchored : Bool) : Bool :=
  match place with
  | anchor => true
  | joined => anchored
  | apart => false

end Place

/-- A number that a builder admits in a place. -/
structure Numeral.StandsAs (n : Numeral) (place : Place) : Prop where
  wellSized : n.WellSized
  adjacency_eq : n.adjacency = .reserves 0
  width_eq : place ≠ .anchor → n.minWidth = n.maxWidth
  sign_eq : place = .joined → n.sign = .notNegative

/-- A number in its place, or a literal that is not empty. -/
inductive RowPart
  | literal (first : Char) (others : List Char)
  | number (place : Place) (n : Numeral)

namespace RowPart

/-- A part that a builder admits. -/
def Valid : RowPart → Prop
  | literal _ _ => True
  | number place n => n.StandsAs place

/-- The digits of the numbers at the start of parts that are joined to an anchor before them. -/
def joinedWidth : List RowPart → Nat
  | number .joined n :: parts => n.minWidth + joinedWidth parts
  | _ => 0

def leaves (anchored : Bool) : List RowPart → List Leaf
  | [] => []
  | literal c cs :: parts => .literal (c :: cs) :: leaves false parts
  | number place n :: parts =>
    .numeral (place.put anchored (joinedWidth parts) n) :: leaves (place.anchors anchored) parts

end RowPart

namespace Scope

def add (sc : Scope) : RowPart → Scope
  | .literal c cs => sc.push (.literal (c :: cs))
  | .number .anchor n => sc.pushAnchor n
  | .number .joined n => sc.pushFixed n.minWidth n
  | .number .apart n => sc.push (.numeral n)

variable {sc : Scope}

theorem push_of_unpadded (h : sc.pendingPad = none) (node : Node) :
    sc.push node = ⟨sc.nodes ++ [node], none, none⟩ := by
  rw [push, h]

theorem pushAnchor_of_unpadded (h : sc.pendingPad = none) (n : Numeral) :
    sc.pushAnchor n = ⟨sc.nodes ++ [.numeral n], some sc.nodes.length, none⟩ := by
  simp [pushAnchor, push_of_unpadded h, h]

theorem pushFixed_of_no_anchor (h : sc.pendingPad = none) (ha : sc.anchor = none) (width : Nat)
    (n : Numeral) : sc.pushFixed width n = ⟨sc.nodes ++ [.numeral n], none, none⟩ := by
  simp [pushFixed, anchor?, ha, push_of_unpadded h]

theorem pushFixed_of_anchor (h : sc.pendingPad = none) {base : Numeral} {before after : List Node}
    (hnodes : sc.nodes = before ++ .numeral base :: after) (ha : sc.anchor = some before.length)
    (width : Nat) (n : Numeral) :
    sc.pushFixed width n =
      ⟨before ++ .numeral (base.reserve width) :: (after ++ [.numeral n.asFixed]),
        some before.length, none⟩ := by
  have hanchor : sc.anchor? = some (before.length, base) := by
    simp [anchor?, ha, hnodes, Node.numeral]
  simp [pushFixed, hanchor, push, h, hnodes]

/-- The nodes after parts are added to a section without an anchor, or to one whose anchor is still
to leave the digits of the parts that are joined to it. -/
theorem nodes_foldl_add (parts : List RowPart) :
    (∀ sc : Scope, sc.pendingPad = none → sc.anchor = none →
      (parts.foldl add sc).nodes = sc.nodes ++ (RowPart.leaves false parts).map .leaf) ∧
    (∀ (sc : Scope) (base : Numeral) (before after : List Node), sc.pendingPad = none →
      sc.nodes = before ++ .numeral base :: after → sc.anchor = some before.length →
      (parts.foldl add sc).nodes =
        before ++ .numeral (base.reserve (RowPart.joinedWidth parts)) :: after ++
          (RowPart.leaves true parts).map .leaf) := by
  induction parts with
  | nil =>
      constructor
      · intro sc hpad hanchor
        simp [RowPart.leaves]
      · intro sc base before after hpad hnodes hanchor
        simp [RowPart.leaves, RowPart.joinedWidth, Numeral.reserve_zero, hnodes]
  | cons part parts ih =>
      obtain ⟨ihnone, ihsome⟩ := ih
      constructor
      · intro sc hpad hanchor
        rw [List.foldl_cons]
        rcases part with ⟨c, cs⟩ | ⟨_ | _ | _, n⟩
        · rw [add, push_of_unpadded hpad, ihnone _ rfl rfl]
          simp [RowPart.leaves, Node.literal]
        · rw [add, pushAnchor_of_unpadded hpad, ihsome _ n sc.nodes [] rfl rfl rfl]
          simp [RowPart.leaves, Place.put, Place.anchors, Node.numeral]
        · rw [add, pushFixed_of_no_anchor hpad hanchor, ihnone _ rfl rfl]
          simp [RowPart.leaves, Place.put, Place.anchors, Node.numeral]
        · rw [add, push_of_unpadded hpad, ihnone _ rfl rfl]
          simp [RowPart.leaves, Place.put, Place.anchors, Node.numeral]
      · intro sc base before after hpad hnodes hanchor
        rw [List.foldl_cons]
        -- Only a joined number keeps the anchor; any other part settles the digits that it leaves.
        rcases part with ⟨c, cs⟩ | ⟨_ | _ | _, n⟩
        · rw [add, push_of_unpadded hpad, ihnone _ rfl rfl]
          simp [RowPart.leaves, RowPart.joinedWidth, Numeral.reserve_zero, hnodes, Node.literal]
        · rw [add, pushAnchor_of_unpadded hpad, ihsome _ n sc.nodes [] rfl rfl rfl]
          simp [RowPart.leaves, RowPart.joinedWidth, Place.put, Place.anchors,
            Numeral.reserve_zero, hnodes, Node.numeral]
        · rw [add, pushFixed_of_anchor hpad hnodes hanchor, ihsome _ _ before _ rfl rfl rfl,
            Numeral.reserve_reserve]
          simp [RowPart.leaves, RowPart.joinedWidth, Place.put, Place.anchors, Node.numeral]
        · rw [add, push_of_unpadded hpad, ihnone _ rfl rfl]
          simp [RowPart.leaves, RowPart.joinedWidth, Place.put, Place.anchors,
            Numeral.reserve_zero, hnodes, Node.numeral]

end Scope

/-- A step of a builder that appends a number or a literal that is not empty. -/
inductive NumberStep
  | value (field : Field)
  | valueWith (field : Field) (minWidth maxWidth : Nat) (sign : SignStyle)
  | fixed (field : Field) (width : Nat)
  | reduced (field : Field) (width : Nat) (base : Int)
  | literal (first : Char) (others : List Char)

namespace NumberStep

def toStep : NumberStep → BuildStep
  | value f => .value f
  | valueWith f minWidth maxWidth sign => .valueWith f minWidth maxWidth sign
  | fixed f width => .fixed f width
  | reduced f width base => .reduced f width base
  | literal c cs => .literal (c :: cs)

def part : NumberStep → RowPart
  | value f => .number .anchor (.plain f 1 maxDigits .normal)
  | valueWith f minWidth maxWidth sign =>
    let place : Place :=
      if minWidth < maxWidth then .anchor else if sign = .notNegative then .joined else .apart
    .number place (.plain f minWidth maxWidth sign)
  | fixed f width => .number .joined (.plain f width width .notNegative)
  | reduced f width base =>
    .number .joined
      { Numeral.plain f width width .notNegative with window := some ⟨base, tenPow width⟩ }
  | literal c cs => .literal c cs

def field? : NumberStep → Option Field
  | value f => some f
  | valueWith f _ _ _ => some f
  | fixed f _ => some f
  | reduced f _ _ => some f
  | literal _ _ => none

end NumberStep

namespace Builder

variable {b b' : Builder}

theorem appendFixed_eq_ok {f : Field} {width : Nat} (h : b.appendFixed f width = .ok b') :
    (1 ≤ width ∧ width ≤ maxDigits) ∧
      b' = b.mapActive (·.pushFixed width (.plain f width width .notNegative)) := by
  unfold appendFixed at h
  by_cases hwidth : width < 1 ∨ maxDigits < width
  · rw [if_pos hwidth] at h
    cases h
  · rw [if_neg hwidth] at h
    cases h
    exact ⟨by omega, rfl⟩

theorem appendValueWith_eq_ok {f : Field} {minWidth maxWidth : Nat} {sign : SignStyle}
    (h : b.appendValueWith f minWidth maxWidth sign = .ok b') :
    (NumberStep.valueWith f minWidth maxWidth sign).part.Valid ∧
      b' = b.mapActive (·.add (NumberStep.valueWith f minWidth maxWidth sign).part) := by
  unfold appendValueWith at h
  by_cases hfixed : minWidth = maxWidth ∧ sign = .notNegative
  · obtain ⟨rfl, rfl⟩ := hfixed
    rw [if_pos ⟨rfl, rfl⟩] at h
    obtain ⟨hwidth, rfl⟩ := appendFixed_eq_ok h
    simp only [NumberStep.part, Nat.lt_irrefl, if_false, if_true]
    exact ⟨⟨Numeral.wellSized_plain hwidth.1 (Nat.le_refl _) hwidth.2, rfl, fun _ => rfl,
      fun _ => rfl⟩, rfl⟩
  rw [if_neg hfixed] at h
  by_cases hmin : minWidth < 1 ∨ maxDigits < minWidth
  · rw [if_pos hmin] at h
    cases h
  by_cases hmax : maxWidth < 1 ∨ maxDigits < maxWidth
  · rw [if_neg hmin, if_pos hmax] at h
    cases h
  by_cases horder : maxWidth < minWidth
  · rw [if_neg hmin, if_neg hmax, if_pos horder] at h
    cases h
  rw [if_neg hmin, if_neg hmax, if_neg horder] at h
  cases h
  have hsized : (Numeral.plain f minWidth maxWidth sign).WellSized :=
    Numeral.wellSized_plain (by omega) (by omega) (by omega)
  by_cases hsame : minWidth = maxWidth
  · subst hsame
    have hsign : sign ≠ .notNegative := fun he => hfixed ⟨rfl, he⟩
    simp only [NumberStep.part, Nat.lt_irrefl, if_false, if_true, hsign]
    refine ⟨⟨hsized, rfl, fun _ => rfl, ?_⟩, rfl⟩
    rintro ⟨⟩
  · have hlt : minWidth < maxWidth := by omega
    simp only [NumberStep.part, hlt, if_true, hsame, if_false]
    refine ⟨⟨hsized, rfl, ?_, ?_⟩, rfl⟩
    · intro hplace
      exact absurd rfl hplace
    · rintro ⟨⟩

theorem appendReduced_eq_ok {f : Field} {width : Nat} {base : Int}
    (h : b.appendReduced f width base = .ok b') :
    (1 ≤ width ∧ width ≤ 18) ∧
      b' = b.mapActive (·.pushFixed width
        { Numeral.plain f width width .notNegative with window := some ⟨base, tenPow width⟩ }) := by
  cases hn : Numeral.reduced f width base with
  | error e =>
      rw [appendReduced, hn] at h
      cases h
  | ok n =>
      rw [appendReduced, hn] at h
      cases h
      obtain ⟨hwidth, rfl⟩ := Numeral.reduced_eq_ok hn
      exact ⟨hwidth, rfl⟩

theorem appendFraction_eq_ok {f : Field} {minWidth maxWidth : Nat} {decimalPoint : Bool}
    (h : b.appendFraction f minWidth maxWidth decimalPoint = .ok b') :
    Fraction.WellSized ⟨f, minWidth, maxWidth, decimalPoint⟩ ∧
      b' = b.append (.leaf (.fraction ⟨f, minWidth, maxWidth, decimalPoint⟩)) := by
  cases hn : Fraction.of f minWidth maxWidth decimalPoint with
  | error e =>
      rw [appendFraction, hn] at h
      cases h
  | ok n =>
      rw [appendFraction, hn] at h
      cases h
      obtain ⟨rfl, hsized⟩ := Fraction.of_eq_ok hn
      exact ⟨hsized, rfl⟩

theorem step_toStep {x : NumberStep} (h : b.step x.toStep = .ok b') :
    x.part.Valid ∧ b' = b.mapActive (·.add x.part) := by
  cases x with
  | value f =>
      cases h
      refine ⟨⟨Numeral.wellSized_plain (by decide) (by decide) (by decide), rfl, ?_, ?_⟩, rfl⟩
      · intro hplace
        exact absurd rfl hplace
      · rintro ⟨⟩
  | fixed f width =>
      obtain ⟨hwidth, rfl⟩ := appendFixed_eq_ok h
      refine ⟨⟨Numeral.wellSized_plain hwidth.1 (Nat.le_refl _) hwidth.2, rfl, ?_, ?_⟩, rfl⟩
      · exact fun _ => rfl
      · exact fun _ => rfl
  | reduced f width base =>
      obtain ⟨hwidth, rfl⟩ := appendReduced_eq_ok h
      refine ⟨⟨⟨hwidth.1, Nat.le_refl _, Nat.le_succ_of_le hwidth.2⟩, rfl, ?_, ?_⟩, rfl⟩
      · exact fun _ => rfl
      · exact fun _ => rfl
  | literal c cs =>
      cases h
      exact ⟨trivial, rfl⟩
  | valueWith f minWidth maxWidth sign => exact appendValueWith_eq_ok h

theorem steps_toStep {list : List NumberStep} (h : b.steps (list.map NumberStep.toStep) = .ok b') :
    (∀ x ∈ list, x.part.Valid) ∧
      b' = b.mapActive fun sc => (list.map NumberStep.part).foldl Scope.add sc := by
  induction list generalizing b with
  | nil =>
      cases h
      exact ⟨by simp, rfl⟩
  | cons x list ih =>
      rw [steps, List.map_cons, List.foldlM_cons] at h
      cases hx : b.step x.toStep with
      | error e =>
          rw [hx] at h
          cases h
      | ok after =>
          rw [hx] at h
          obtain ⟨hvalid, rfl⟩ := step_toStep hx
          obtain ⟨hrest, rfl⟩ := ih h
          refine ⟨?_, rfl⟩
          intro y hy
          rcases List.mem_cons.1 hy with rfl | hy
          · exact hvalid
          · exact hrest y hy

/-- The nodes that a builder makes of numbers and literals. -/
theorem nodes_of_number_steps {texts : TextSource} {list : List NumberStep}
    (h : (withTexts texts).steps (list.map NumberStep.toStep) = .ok b) :
    (∀ x ∈ list, x.part.Valid) ∧
      b.nodes = (RowPart.leaves false (list.map NumberStep.part)).map .leaf := by
  obtain ⟨hvalid, rfl⟩ := steps_toStep h
  refine ⟨hvalid, ?_⟩
  have hnodes := (Scope.nodes_foldl_add (list.map NumberStep.part)).1 .empty rfl rfl
  rw [Scope.empty, List.nil_append] at hnodes
  exact hnodes

end Builder

end DateTimeText
