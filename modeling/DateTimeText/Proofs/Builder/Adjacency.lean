import DateTimeText.Formatter.Iso
import DateTimeText.Proofs.Builder.Changes

/-!
# Numbers side by side

Whatever the steps of a builder are and in whatever order, a number leaves exactly the digits of the
numbers of fixed width that follow it, in every list of nodes at every depth. The anchor of an open
section is the number to which the next number of fixed width is joined: everything after it is of
fixed width already.
-/

namespace DateTimeText

namespace Numeral

variable {n : Numeral}

theorem keepsWidth_asFixed (n : Numeral) : n.asFixed.keepsWidth = true := by
  unfold asFixed keepsWidth
  split
  · simp_all
  · simp

theorem IsFixed.reserved_eq (h : n.IsFixed) : n.reserved = 0 := by
  rw [reserved, h.adjacency_eq]

theorem IsFixed.reserved_asFixed (h : n.IsFixed) : n.asFixed.reserved = 0 := by
  unfold asFixed
  split
  · exact h.reserved_eq
  · rfl

theorem minWidth_asFixed (n : Numeral) : n.asFixed.minWidth = n.minWidth := by
  unfold asFixed
  split <;> rfl

theorem maxWidth_asFixed (n : Numeral) : n.asFixed.maxWidth = n.maxWidth := by
  unfold asFixed
  split <;> rfl

theorem reserve_of_reserves {digits : Nat} (h : n.adjacency = .reserves digits) (width : Nat) :
    n.reserve width = { n with adjacency := .reserves (digits + width) } := by
  rw [reserve, h]

end Numeral

namespace Node

/-- The width of a number that has a fixed width. -/
def fixedWidth? : Node → Option Nat
  | leaf (.numeral n) => if n.keepsWidth ∧ n.minWidth = n.maxWidth then some n.maxWidth else none
  | _ => none

/-- The digits of nodes all of which are numbers of fixed width. -/
def rowWidth? : List Node → Option Nat
  | [] => some 0
  | node :: nodes =>
    match node.fixedWidth?, rowWidth? nodes with
    | some width, some digits => some (width + digits)
    | _, _ => none

/-- The digits that a node leaves are those of the numbers of fixed width that come next. -/
def LeavesTo (rest : List Node) : Node → Prop
  | leaf l => ∃ count, rowWidth? (rest.take count) = some l.reserved
  | _ => True

mutual

/-- In each list of nodes inside a node, digits are left to the nodes that have them. -/
def Joined : Node → Prop
  | pad inner _ _ => inner.LeavesTo [] ∧ Joined inner
  | group nodes _ => JoinedAll nodes
  | _ => True

/-- In a list of nodes and in each list inside it, digits are left to the nodes that have them. -/
def JoinedAll : List Node → Prop
  | [] => True
  | node :: rest => node.LeavesTo rest ∧ Joined node ∧ JoinedAll rest

end

variable {nodes row before rest : List Node} {node : Node}

theorem rowWidth?_append {xs ys : List Node} {j k : Nat} (hx : rowWidth? xs = some j)
    (hy : rowWidth? ys = some k) : rowWidth? (xs ++ ys) = some (j + k) := by
  induction xs generalizing j with
  | nil =>
      obtain rfl : 0 = j := by simpa [rowWidth?] using hx
      simpa using hy
  | cons x xs ih =>
      rw [rowWidth?] at hx
      split at hx
      · rename_i width digits hwidth hdigits
        cases hx
        simp only [List.cons_append, rowWidth?, hwidth, ih hdigits, Nat.add_assoc]
      · cases hx

theorem isSome_fixedWidth?_of_mem {digits : Nat} (h : rowWidth? row = some digits)
    (hmem : node ∈ row) : node.fixedWidth?.isSome := by
  induction row generalizing digits with
  | nil => simp at hmem
  | cons x row ih =>
      rw [rowWidth?] at h
      split at h
      · rename_i width rest hwidth hrest
        rcases List.mem_cons.1 hmem with rfl | hmem
        · simp [hwidth]
        · exact ih hrest hmem
      · cases h

theorem leavesTo_of_reserved_eq_zero {l : Leaf} (h : l.reserved = 0) :
    (leaf l).LeavesTo rest :=
  ⟨0, by rw [h]; rfl⟩

mutual

/-- Whether a number in a node leaves digits. -/
def leaves : Node → Bool
  | leaf l => l.reserved != 0
  | pad inner _ _ => leaves inner
  | group nodes _ => leavesAny nodes
  | _ => false

def leavesAny : List Node → Bool
  | [] => false
  | node :: nodes => leaves node || leavesAny nodes

end

mutual

theorem joined_of_leaves : ∀ node : Node, node.leaves = false →
    (∀ rest, node.LeavesTo rest) ∧ node.Joined
  | leaf l, h => ⟨fun _ => leavesTo_of_reserved_eq_zero (by simpa [leaves] using h), trivial⟩
  | mode _, _ => ⟨fun _ => trivial, trivial⟩
  | instant, _ => ⟨fun _ => trivial, trivial⟩
  | localized _, _ => ⟨fun _ => trivial, trivial⟩
  | pad inner width fill, h => by
      have hinner := joined_of_leaves inner h
      exact ⟨fun _ => trivial, hinner.1 [], hinner.2⟩
  | group nodes optional, h => ⟨fun _ => trivial, joinedAll_of_leavesAny nodes h⟩

/-- Nodes without digits left to others have nothing to be joined. -/
theorem joinedAll_of_leavesAny : ∀ nodes : List Node, leavesAny nodes = false → JoinedAll nodes
  | [], _ => trivial
  | node :: nodes, h => by
      obtain ⟨hnode, hnodes⟩ : node.leaves = false ∧ leavesAny nodes = false := by
        simpa [leavesAny] using h
      have hjoined := joined_of_leaves node hnode
      exact ⟨hjoined.1 nodes, hjoined.2, joinedAll_of_leavesAny nodes hnodes⟩

end

theorem LeavesTo.append (h : node.LeavesTo rest) (more : List Node) :
    node.LeavesTo (rest ++ more) := by
  cases node with
  | leaf l =>
      obtain ⟨count, hcount⟩ := h
      refine ⟨min count rest.length, ?_⟩
      rw [List.take_append_of_le_length (Nat.min_le_right _ _), ← List.take_eq_take_min]
      exact hcount
  | _ => trivial

/-- A node that is no number of fixed width ends every row before it. -/
theorem LeavesTo.of_append_cons {stop : Node} (h : node.LeavesTo (before ++ stop :: rest))
    (hstop : stop.fixedWidth? = none) : node.LeavesTo before := by
  cases node with
  | leaf l =>
      obtain ⟨count, hcount⟩ := h
      by_cases hle : count ≤ before.length
      · exact ⟨count, by rwa [List.take_append_of_le_length hle] at hcount⟩
      · obtain ⟨extra, hextra⟩ : ∃ extra, count - before.length = extra + 1 :=
          Nat.exists_eq_add_one.2 (by omega)
        have hmem : stop ∈ (before ++ stop :: rest).take count := by
          simp [List.take_append, hextra]
        have hsome := isSome_fixedWidth?_of_mem hcount hmem
        simp [hstop] at hsome
  | _ => trivial

theorem joinedAll_singleton (hleaves : node.LeavesTo []) (hjoined : node.Joined) :
    JoinedAll [node] :=
  ⟨hleaves, hjoined, trivial⟩

theorem JoinedAll.append (hb : JoinedAll before) (hr : JoinedAll rest) :
    JoinedAll (before ++ rest) := by
  induction before with
  | nil => exact hr
  | cons x before ih =>
      obtain ⟨hx, hjoined, hbefore⟩ := hb
      exact ⟨hx.append rest, hjoined, ih hbefore⟩

theorem JoinedAll.right (h : JoinedAll (before ++ rest)) : JoinedAll rest := by
  induction before with
  | nil => exact h
  | cons x before ih => exact ih h.2.2

theorem JoinedAll.left {stop : Node} (h : JoinedAll (before ++ stop :: rest))
    (hstop : stop.fixedWidth? = none) : JoinedAll before := by
  induction before with
  | nil => trivial
  | cons x before ih =>
      obtain ⟨hx, hjoined, hbefore⟩ := h
      exact ⟨hx.of_append_cons hstop, hjoined, ih hbefore⟩

end Node

namespace Scope

open Node

variable {sc : Scope}

/-- The anchor at a place, and no pad pending: a number of variable width with numbers of fixed
width after it to the end of the section, whose digits are those that it leaves. -/
def AnchoredAt (sc : Scope) (i : Nat) : Prop :=
  sc.pendingPad = none ∧
    ∃ before n row digits, sc.nodes = before ++ .numeral n :: row ∧ before.length = i ∧
      n.window = none ∧ n.minWidth < n.maxWidth ∧ n.adjacency = .reserves digits ∧
      rowWidth? row = some digits

/-- The digits of a section are left to the nodes that have them. -/
structure Joined (sc : Scope) : Prop where
  anchoredAt : ∀ i, sc.anchor = some i → sc.AnchoredAt i
  joinedAll : JoinedAll sc.nodes

theorem joined_of_anchor_eq_none (ha : sc.anchor = none) (h : JoinedAll sc.nodes) : sc.Joined where
  anchoredAt := by
    intro i hi
    rw [ha] at hi
    cases hi
  joinedAll := h

theorem anchor_push (sc : Scope) (node : Node) : (sc.push node).anchor = none := by
  unfold push
  split <;> rfl

theorem Joined.push (h : sc.Joined) {node : Node} (hleaves : node.LeavesTo [])
    (hjoined : node.Joined) : (sc.push node).Joined := by
  apply joined_of_anchor_eq_none (sc.anchor_push node)
  unfold Scope.push
  split
  · rename_i width fill hpad
    exact h.joinedAll.append (joinedAll_singleton trivial ⟨hleaves, hjoined⟩)
  · exact h.joinedAll.append (joinedAll_singleton hleaves hjoined)

theorem Joined.pushLeaf (h : sc.Joined) {l : Leaf} (hl : l.reserved = 0) :
    (sc.push (.leaf l)).Joined :=
  h.push (leavesTo_of_reserved_eq_zero hl) trivial

theorem Joined.pushAnchor (h : sc.Joined) {n : Numeral} (hn : n.IsVariable) :
    (sc.pushAnchor n).Joined := by
  have hzero : n.reserved = 0 := by rw [Numeral.reserved, hn.adjacency_eq]
  have hpush : (sc.push (.numeral n)).Joined := h.pushLeaf hzero
  refine ⟨?_, hpush.joinedAll⟩
  intro i hi
  rcases hpad : sc.pendingPad with _ | pad
  · rw [pushAnchor_of_unpadded hpad] at hi ⊢
    obtain rfl := Option.some.inj hi
    exact ⟨rfl, sc.nodes, n, [], 0, rfl, rfl, hn.window_eq, hn.minWidth_lt, hn.adjacency_eq, rfl⟩
  · simp [Scope.pushAnchor, hpad] at hi

theorem fixedWidth?_asFixed {n : Numeral} (hn : n.IsFixed) :
    fixedWidth? (.numeral n.asFixed) = some n.minWidth := by
  simp [fixedWidth?, Node.numeral, n.keepsWidth_asFixed, n.minWidth_asFixed, n.maxWidth_asFixed,
    hn.width_eq]

theorem fixedWidth?_of_lt {n : Numeral} (h : n.minWidth < n.maxWidth) :
    fixedWidth? (.numeral n) = none := by
  simp [fixedWidth?, Node.numeral, Nat.ne_of_lt h]

theorem Joined.pushFixed (h : sc.Joined) {n : Numeral} (hn : n.IsFixed) :
    (sc.pushFixed n.minWidth n).Joined := by
  rcases ha : sc.anchor with _ | i
  · have hpush : sc.pushFixed n.minWidth n = sc.push (.numeral n) := by
      simp [Scope.pushFixed, anchor?, ha]
    rw [hpush]
    exact h.pushLeaf hn.reserved_eq
  obtain ⟨hpad, before, base, row, digits, hnodes, rfl, hwindow, hlt, hadj, hrow⟩ :=
    h.anchoredAt i ha
  rw [pushFixed_of_anchor hpad hnodes ha, Numeral.reserve_of_reserves hadj]
  -- The row behind the anchor grows by the new number, and so do the digits that it leaves.
  have hgrown : rowWidth? (row ++ [Node.numeral n.asFixed]) = some (digits + n.minWidth) := by
    apply rowWidth?_append hrow
    simp [rowWidth?, fixedWidth?_asFixed hn]
  have hall : JoinedAll (before ++ Node.numeral base :: row) := hnodes ▸ h.joinedAll
  have hbefore : JoinedAll before := hall.left (fixedWidth?_of_lt hlt)
  have hjoined : JoinedAll (row ++ [Node.numeral n.asFixed]) := by
    apply hall.right.2.2.append
    exact joinedAll_singleton (leavesTo_of_reserved_eq_zero hn.reserved_asFixed) trivial
  constructor
  · intro i hi
    obtain rfl := Option.some.inj hi
    exact ⟨rfl, before, _, _, _, rfl, rfl, hwindow, hlt, rfl, hgrown⟩
  · apply hbefore.append
    refine ⟨⟨(row ++ [Node.numeral n.asFixed]).length, ?_⟩, trivial, hjoined⟩
    rw [List.take_length]
    exact hgrown

theorem Joined.of_grows (h : sc.Joined) {after : Scope}
    (hc : sc.Grows (fun node => node.LeavesTo [] ∧ node.Joined) after) : after.Joined := by
  cases hc with
  | leaf l hl => exact h.pushLeaf hl
  | node node hn => exact h.push hn.1 hn.2
  | anchor n hn => exact h.pushAnchor hn
  | joined n hn => exact h.pushFixed hn

theorem Joined.close {inner outer : Scope} (hi : inner.Joined) (ho : outer.Joined) :
    (inner.close outer).Joined := by
  unfold Scope.close
  split
  · exact ho
  · exact ho.push trivial hi.joinedAll

theorem joined_empty : empty.Joined :=
  joined_of_anchor_eq_none rfl trivial

end Scope

namespace Builder

variable {b after : Builder}

/-- The open sections, from the inside to the outside. -/
def scopes (b : Builder) : List Scope :=
  b.active :: b.enclosing

/-- The digits of all open sections are left to the nodes that have them. -/
def Joined (b : Builder) : Prop :=
  ∀ sc ∈ b.scopes, sc.Joined

theorem joined_withTexts (texts : TextSource) : (withTexts texts).Joined := by
  intro sc hsc
  rw [List.mem_singleton.1 hsc]
  exact Scope.joined_empty

/-- One change keeps the digits in order. -/
theorem Joined.of_change (h : b.Joined)
    (hc : Change (fun node => node.LeavesTo [] ∧ node.Joined) b after) : after.Joined := by
  have hactive : b.active.Joined := h b.active (by simp [scopes])
  have henclosing : ∀ sc ∈ b.enclosing, sc.Joined := fun sc hsc => h sc (by simp [scopes, hsc])
  cases hc with
  | grow hg =>
      intro sc hsc
      rcases List.mem_cons.1 hsc with rfl | hsc
      · exact hactive.of_grows hg.active
      · exact henclosing sc (hg.enclosing_eq ▸ hsc)
  | pad width fill =>
      intro sc hsc
      rcases List.mem_cons.1 hsc with rfl | hsc
      · exact Scope.joined_of_anchor_eq_none rfl hactive.joinedAll
      · exact henclosing sc hsc
  | openSection =>
      intro sc hsc
      rcases List.mem_cons.1 hsc with rfl | hsc
      · exact Scope.joined_empty
      rcases List.mem_cons.1 hsc with rfl | hsc
      · exact Scope.joined_of_anchor_eq_none rfl hactive.joinedAll
      · exact henclosing sc hsc
  | closeSection outer rest hb =>
      rw [hb] at henclosing
      intro sc hsc
      rcases List.mem_cons.1 hsc with rfl | hsc
      · exact hactive.close (henclosing outer (by simp))
      · exact henclosing sc (by simp [hsc])
  | texts source => exact h

theorem Joined.of_changes (h : b.Joined)
    (hc : Changes (fun node => node.LeavesTo [] ∧ node.Joined) b after) : after.Joined :=
  hc.keeps (fun hstep hb => hb.of_change hstep) h

theorem Joined.joinedAll_nodes (h : b.Joined) : Node.JoinedAll b.nodes :=
  (h.of_changes (changes_closeAll b) b.closeAll.active (by simp [scopes])).joinedAll

/-- A step keeps the digits in order, whether it is refused or not. -/
theorem Joined.perform (h : b.Joined) {s : BuildStep}
    (hgroup : ∀ nodes optional, s = .group nodes optional → Node.JoinedAll nodes) :
    (b.perform s).1.Joined := by
  unfold Builder.perform
  cases hs : b.step s with
  | error e => exact h
  | ok after =>
      apply h.of_changes
      apply Changes.of_step _ hs
      intro node hnode
      cases s with
      | group nodes optional =>
          obtain rfl := Option.some.inj hnode
          exact ⟨trivial, hgroup nodes optional rfl⟩
      | mode | instant | localized =>
          obtain rfl := Option.some.inj hnode
          exact ⟨trivial, trivial⟩
      | _ => cases hnode

theorem Joined.performAll (h : b.Joined) {list : List BuildStep}
    (hgroup : ∀ nodes optional, .group nodes optional ∈ list → Node.JoinedAll nodes) :
    (b.performAll list).Joined := by
  induction list generalizing b with
  | nil => exact h
  | cons s list ih =>
      apply ih
      · apply h.perform
        rintro nodes optional rfl
        exact hgroup nodes optional (by simp)
      · intro nodes optional hmem
        exact hgroup nodes optional (by simp [hmem])

end Builder

/-- The nodes of formatters: those of the ISO formats, and what builders make by steps of which
some may be refused, and which append nothing but the nodes of formatters. -/
inductive IsFormat : List Node → Prop
  | iso (f : Formatter) (h : f ∈ [.isoLocalDate, .isoLocalTime, .isoLocalDateTime,
      .isoOffsetDateTime, .isoInstant, .basicIsoDate]) : IsFormat f.nodes
  | built (texts : TextSource) (list : List BuildStep)
    (h : ∀ nodes optional, .group nodes optional ∈ list → IsFormat nodes) :
    IsFormat ((Builder.withTexts texts).performAll list).nodes

theorem IsFormat.joinedAll {nodes : List Node} (h : IsFormat nodes) : Node.JoinedAll nodes := by
  induction h with
  | iso f hf =>
      have hnone : ∀ f ∈ [Formatter.isoLocalDate, .isoLocalTime, .isoLocalDateTime,
          .isoOffsetDateTime, .isoInstant, .basicIsoDate], Node.leavesAny f.nodes = false := by
        decide
      exact Node.joinedAll_of_leavesAny f.nodes (hnone f hf)
  | built texts list _ ih => exact ((Builder.joined_withTexts texts).performAll ih).joinedAll_nodes

namespace Builder

/-- After any steps of a builder there is a section to append to. An anchor has no pad behind it and
leaves the digits of all numbers behind it; and in every list of nodes, at every depth and in what
the formatter gets, a number leaves exactly the digits of the numbers that follow it. -/
theorem performAll_joined (texts : TextSource) (list : List BuildStep)
    (h : ∀ nodes optional, .group nodes optional ∈ list → IsFormat nodes) :
    ((withTexts texts).performAll list).scopes ≠ [] ∧
      (∀ sc ∈ ((withTexts texts).performAll list).scopes,
        (∀ i, sc.anchor = some i → sc.AnchoredAt i) ∧ Node.JoinedAll sc.nodes) ∧
      Node.JoinedAll ((withTexts texts).performAll list).nodes := by
  have hjoined : ((withTexts texts).performAll list).Joined := by
    apply (joined_withTexts texts).performAll
    intro nodes optional hmem
    exact (h nodes optional hmem).joinedAll
  refine ⟨List.cons_ne_nil _ _, ?_, hjoined.joinedAll_nodes⟩
  intro sc hsc
  exact ⟨(hjoined sc hsc).anchoredAt, (hjoined sc hsc).joinedAll⟩

/-- Behind the nodes of a formatter stands a year with a month that is joined to it; the end of a
section that is not open is refused and leaves them as they are. -/
theorem performAll_joined_year_month :
    (∀ nodes optional, BuildStep.group nodes optional ∈
        [.group Formatter.isoLocalDate.nodes true, .value .year, .fixed .monthOfYear 2,
          .endOptional] → IsFormat nodes) ∧
      Scope.AnchoredAt ((withTexts English.texts).performAll
        [.group Formatter.isoLocalDate.nodes true, .value .year, .fixed .monthOfYear 2,
          .endOptional]).active 1 := by
  have h : ∀ nodes optional, BuildStep.group nodes optional ∈
      [.group Formatter.isoLocalDate.nodes true, .value .year, .fixed .monthOfYear 2,
        .endOptional] → IsFormat nodes := by
    intro nodes optional hmem
    obtain ⟨rfl, -⟩ : nodes = Formatter.isoLocalDate.nodes ∧ optional = true := by
      simpa using hmem
    exact .iso _ (by simp)
  exact ⟨h, ((performAll_joined English.texts _ h).2.1 _ (by simp [scopes])).1 1 rfl⟩

end Builder

end DateTimeText
