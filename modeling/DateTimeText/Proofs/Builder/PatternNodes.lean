import DateTimeText.Proofs.Builder.Changes

/-!
# The nodes of patterns

Patterns stand for leaves, padded nodes and optional sections, and nothing else. So a property that
these keep holds of every node that a pattern builds.
-/

namespace DateTimeText

/-- A property that all leaves have, and padded nodes and sections if their own nodes do. -/
structure Node.KeptByPatterns (P : Node → Prop) : Prop where
  leaf : ∀ l, P (.leaf l)
  pad : ∀ inner width fill, P inner → P (.pad inner width fill)
  optional : ∀ nodes, (∀ node ∈ nodes, P node) → P (.group nodes true)

namespace Scope

variable {P : Node → Prop} {sc : Scope}

/-- All nodes of a section have a property. -/
def Forall (P : Node → Prop) (sc : Scope) : Prop :=
  ∀ node ∈ sc.nodes, P node

theorem forall_empty : empty.Forall P := by
  simp [Forall, empty]

theorem Forall.push (hP : Node.KeptByPatterns P) (h : sc.Forall P) {node : Node} (hn : P node) :
    (sc.push node).Forall P := by
  intro n hmem
  unfold Scope.push at hmem
  split at hmem
  · rcases List.mem_append.1 hmem with hold | hnew
    · exact h n hold
    · rw [List.mem_singleton.1 hnew]
      exact hP.pad node _ _ hn
  · rcases List.mem_append.1 hmem with hold | hnew
    · exact h n hold
    · rw [List.mem_singleton.1 hnew]
      exact hn

theorem Forall.pushAnchor (hP : Node.KeptByPatterns P) (h : sc.Forall P) (n : Numeral) :
    (sc.pushAnchor n).Forall P :=
  h.push hP (hP.leaf (.numeral n))

theorem Forall.pushFixed (hP : Node.KeptByPatterns P) (h : sc.Forall P) (width : Nat)
    (n : Numeral) : (sc.pushFixed width n).Forall P := by
  unfold Scope.pushFixed
  split
  · exact h.push hP (hP.leaf (.numeral n))
  · rename_i i base hanchor
    have hset : Forall P { sc with nodes := sc.nodes.set i (.numeral (base.reserve width)) } := by
      intro m hm
      rcases List.mem_or_eq_of_mem_set hm with hold | rfl
      · exact h m hold
      · exact hP.leaf _
    exact hset.push hP (hP.leaf (.numeral n.asFixed))

theorem Forall.of_grows (hP : Node.KeptByPatterns P) (h : sc.Forall P) {after : Scope}
    (hc : sc.Grows (fun _ => False) after) : after.Forall P := by
  cases hc with
  | leaf l _ => exact h.push hP (hP.leaf l)
  | node node hn => exact hn.elim
  | anchor n _ => exact h.pushAnchor hP n
  | joined n _ => exact h.pushFixed hP n.minWidth n

theorem Forall.close (hP : Node.KeptByPatterns P) {inner outer : Scope} (hi : inner.Forall P)
    (ho : outer.Forall P) : (inner.close outer).Forall P := by
  unfold Scope.close
  split
  · exact ho
  · exact ho.push hP (hP.optional _ hi)

end Scope

namespace Builder

variable {P : Node → Prop} {b after : Builder}

/-- All nodes of all open sections have a property. -/
structure Forall (P : Node → Prop) (b : Builder) : Prop where
  active : b.active.Forall P
  enclosing : ∀ sc ∈ b.enclosing, sc.Forall P

theorem forall_withTexts (texts : TextSource) : (withTexts texts).Forall P :=
  ⟨Scope.forall_empty, by simp [withTexts]⟩

/-- Every change that appends leaves only keeps the property. -/
theorem Forall.of_change (hP : Node.KeptByPatterns P) (h : b.Forall P)
    (hc : Change (fun _ => False) b after) : after.Forall P := by
  cases hc with
  | grow hg =>
      exact ⟨h.active.of_grows hP hg.active, by simpa only [hg.enclosing_eq] using h.enclosing⟩
  | pad width fill => exact ⟨h.active, h.enclosing⟩
  | openSection =>
      refine ⟨Scope.forall_empty, fun sc hsc => ?_⟩
      rcases List.mem_cons.1 hsc with rfl | hrest
      · exact h.active
      · exact h.enclosing sc hrest
  | closeSection outer rest hb =>
      refine ⟨h.active.close hP (h.enclosing outer (by simp [hb])), fun sc hsc => ?_⟩
      exact h.enclosing sc (by simp [hb, hsc])
  | texts source => exact ⟨h.active, h.enclosing⟩

theorem Forall.of_changes (hP : Node.KeptByPatterns P) (h : b.Forall P)
    (hc : Changes (fun _ => False) b after) : after.Forall P :=
  hc.keeps (fun hstep hb => hb.of_change hP hstep) h

theorem Forall.nodes (hP : Node.KeptByPatterns P) (h : b.Forall P) : ∀ node ∈ b.nodes, P node :=
  (h.of_changes hP (changes_closeAll b)).active

/-- Every node that a pattern adds to a builder has the property. -/
theorem Forall.appendPattern (hP : Node.KeptByPatterns P) (h : b.Forall P) {pattern : List Char}
    (hs : b.appendPattern pattern = .ok after) : after.Forall P :=
  h.of_changes hP (.of_appendPattern hs)

end Builder

theorem LocalizedText.forall_nodes {P : Node → Prop} (hP : Node.KeptByPatterns P)
    {l : LocalizedText} {s : Settings} {c : Chronology} {nodes : List Node}
    (hs : l.nodes s c = .ok nodes) : ∀ node ∈ nodes, P node := by
  unfold LocalizedText.nodes at hs
  split at hs
  · cases hs
  split at hs
  · cases hs
  · rename_i pattern hpattern b hb
    cases hs
    exact ((Builder.forall_withTexts l.texts).appendPattern hP hb).nodes hP

end DateTimeText
