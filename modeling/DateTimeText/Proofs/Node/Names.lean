import DateTimeText.Node.Render
import DateTimeText.Proofs.Node.Cursor
import DateTimeText.Proofs.Node.FieldValues
import DateTimeText.Proofs.Node.Fraction
import DateTimeText.Proofs.Node.Zones

/-!
# What a node names

A node names the fields that it reads and writes. Reading a tree gives no value to any other field,
no zone without a node for zones and no chronology without a node for chronologies: what an instant
or a zone reads on the way stays in it. And what a tree writes depends on nothing else of a value.
-/

namespace DateTimeText

/-! ### The parts of a tree -/

namespace Node

mutual

/-- A node and the nodes that it is made of. -/
def subnodes : Node → List Node
  | leaf l => [leaf l]
  | mode change => [mode change]
  | instant => [instant]
  | localized l => [localized l]
  | pad inner width fill => pad inner width fill :: subnodes inner
  | group nodes optional => group nodes optional :: subnodesAll nodes

def subnodesAll : List Node → List Node
  | [] => []
  | node :: nodes => subnodes node ++ subnodesAll nodes

end

theorem mem_subnodes_self (node : Node) : node ∈ node.subnodes := by
  cases node <;> simp [subnodes]

end Node

/-- The fields that a leaf may give values to. -/
def Leaf.fields : Leaf → List Field
  | literal _ => []
  | numeral n => [n.field]
  | fraction n => [n.field]
  | text n => [n.field]
  | offset _ => [.offsetSeconds]
  | zone _ => []
  | zoneText _ => []
  | chronology _ => []

/-- The fields that a leaf may write. A zone may stand in for an offset that is not read with it. -/
def Leaf.fieldsWritten : Leaf → List Field
  | zone .zoneOrOffset => [.offsetSeconds]
  | l => l.fields

/-- The fields that a node names itself, apart from the nodes that it is made of. -/
def Node.fields : Node → List Field
  | leaf l => l.fields
  | instant => [.instantSeconds, .nanoOfSecond]
  | _ => []

def Node.fieldsWritten : Node → List Field
  | leaf l => l.fieldsWritten
  | node => node.fields

/-! ### Readings of one field -/

namespace Reading

/-- A reading that gives a value to no field but one, and no zone or chronology. -/
structure OnlyField (f : Field) (r : Reading) : Prop where
  fields : ∀ p ∈ r.fields, p.1 = f
  zone : r.zone = none
  chronology : r.chronology = none

theorem onlyField_value (f : Field) (v : Int) (conflictAt rest : List Char) :
    (value f v conflictAt rest).OnlyField f where
  fields := by
    intro p hp
    cases List.mem_singleton.1 hp
    rfl
  zone := rfl
  chronology := rfl

theorem onlyField_skip (f : Field) (rest : List Char) : (skip rest).OnlyField f where
  fields := nofun
  zone := rfl
  chronology := rfl

end Reading

open Reading (onlyField_value onlyField_skip)

variable {s : Symbols} {strict : Bool} {text : List Char} {r : Reading}

theorem Numeral.onlyField_of_readDigits {n : Numeral} {sign : Option Sign} {start body : List Char}
    (h : n.readDigits s strict sign start body = .ok r) : r.OnlyField n.field := by
  rcases n.readDigits_cases s strict sign start body with hr | hr | ⟨k, -, value, hr⟩
  · rw [hr] at h
    cases h
  · rw [hr] at h
    cases h
  · rw [hr] at h
    cases h
    exact onlyField_value ..

theorem Numeral.onlyField_of_read {n : Numeral} (h : n.read s strict text = .ok r) :
    r.OnlyField n.field := by
  cases text with
  | nil => cases h
  | cons c rest =>
      simp only [read] at h
      split_ifs at h
      · exact onlyField_of_readDigits h
      · exact onlyField_of_readDigits h
      · exact onlyField_of_readDigits h

theorem Fraction.onlyField_of_read {n : Fraction} (h : n.read s strict text = .ok r) :
    r.OnlyField n.field := by
  rcases read_eq_ok h with ⟨-, rfl⟩ | ⟨run, rest, -, -, -, -, rfl⟩
  · exact onlyField_skip ..
  · exact onlyField_value ..

theorem TextField.onlyField_of_read {n : TextField} {locale : String} {mode : Mode}
    (h : n.read s locale mode text = .ok r) : r.OnlyField n.field := by
  unfold read at h
  split at h
  · exact Numeral.onlyField_of_read h
  · split at h
    · cases h
      exact onlyField_value ..
    · split at h
      · cases h
      · exact Numeral.onlyField_of_read h

theorem OffsetForm.onlyField_of_read {o : OffsetForm} {mode : Mode}
    (h : o.read mode text = .ok r) : r.OnlyField .offsetSeconds := by
  unfold read at h
  split at h
  · cases h
    exact onlyField_value ..
  · cases h

/-! ### Reading -/

/-- What is in `w` was in `v` before or is named by a node of `parts`. -/
structure Components.Adds (parts : List Node) (v w : Components) : Prop where
  field : ∀ f x, w.field f = some x → v.field f = some x ∨ ∃ part ∈ parts, f ∈ part.fields
  zone : ∀ z, w.zone = some z → v.zone = some z ∨ ∃ q, .leaf (.zone q) ∈ parts
  chronology : ∀ c, w.chronology = some c →
    v.chronology = some c ∨ ∃ style, .leaf (.chronology style) ∈ parts

namespace Components.Adds

variable {parts parts' : List Node} {u v w : Components}

theorem refl (parts : List Node) (v : Components) : v.Adds parts v :=
  ⟨fun _ _ => .inl, fun _ => .inl, fun _ => .inl⟩

theorem mono (h : v.Adds parts w) (hsub : ∀ part ∈ parts, part ∈ parts') : v.Adds parts' w where
  field f x hf := (h.field f x hf).imp_right fun ⟨part, hpart, hmem⟩ => ⟨part, hsub _ hpart, hmem⟩
  zone z hz := (h.zone z hz).imp_right fun ⟨q, hq⟩ => ⟨q, hsub _ hq⟩
  chronology c hc := (h.chronology c hc).imp_right fun ⟨style, hstyle⟩ => ⟨style, hsub _ hstyle⟩

theorem trans (h : u.Adds parts v) (h' : v.Adds parts w) : u.Adds parts w where
  field f x hf := (h'.field f x hf).elim (h.field f x) .inr
  zone z hz := (h'.zone z hz).elim (h.zone z) .inr
  chronology c hc := (h'.chronology c hc).elim (h.chronology c) .inr

end Components.Adds

/-- A reading that gives nothing but what a node names. -/
structure Reading.NamedBy (r : Reading) (node : Node) : Prop where
  fields : ∀ p ∈ r.fields, p.1 ∈ node.fields
  zone : r.zone ≠ none → ∃ q, node = .leaf (.zone q)
  chronology : r.chronology ≠ none → ∃ style, node = .leaf (.chronology style)

theorem Reading.OnlyField.namedBy {f : Field} (h : r.OnlyField f) {node : Node}
    (hf : f ∈ node.fields) : r.NamedBy node where
  fields p hp := h.fields p hp ▸ hf
  zone hz := absurd h.zone hz
  chronology hc := absurd h.chronology hc

theorem Leaf.namedBy_of_read {st : Settings} {mode : Mode} {l : Leaf}
    (h : l.read st mode text = .ok r) : r.NamedBy (.leaf l) := by
  cases l with
  | literal l =>
      simp only [read, readLiteral] at h
      split at h
      · cases h
        exact ⟨List.forall_mem_nil _, fun hz => absurd rfl hz, fun hc => absurd rfl hc⟩
      · cases h
  | numeral n => exact (Numeral.onlyField_of_read h).namedBy List.mem_cons_self
  | fraction n => exact (Fraction.onlyField_of_read h).namedBy List.mem_cons_self
  | text n => exact (TextField.onlyField_of_read h).namedBy List.mem_cons_self
  | offset o => exact (OffsetForm.onlyField_of_read h).namedBy List.mem_cons_self
  | zone q =>
      obtain ⟨z, rest, rfl, -⟩ := ZoneQuery.exists_normal_of_read h
      exact ⟨List.forall_mem_nil _, fun _ => ⟨q, rfl⟩, fun hc => absurd rfl hc⟩
  | zoneText style => cases h
  | chronology style =>
      simp only [read, Chronology.read] at h
      split at h
      · cases h
        exact ⟨List.forall_mem_nil _, fun hz => absurd rfl hz, fun _ => ⟨style, rfl⟩⟩
      · cases h

/-- The fields of the date and time of day that an instant is read from are not among its own. -/
theorem Node.namedBy_of_instantReading {own : Components} {rest : List Char}
    (h : instantReading own text rest = .ok r) : r.NamedBy .instant := by
  unfold instantReading at h
  split at h
  · cases h
    exact ⟨by simp [fields], fun hz => absurd rfl hz, fun hc => absurd rfl hc⟩
  · cases h

theorem Components.adds_of_addResult {v w : Components} {result : Except (List Char) Reading}
    {node : Node} (hnamed : ∀ r, result = .ok r → r.NamedBy node) {rest : List Char}
    (h : v.addResult result = .ok (w, rest)) : v.Adds [node] w := by
  obtain ⟨r, hr, -, hextends, hzone, hchronology⟩ := addResult_eq_ok h
  have hnode := hnamed r hr
  refine ⟨?field, ?zone, ?chronology⟩
  case field =>
    intro f x hf
    rcases (hextends f x).1 hf with hold | hnew
    · exact .inl hold
    · exact .inr ⟨node, List.mem_singleton_self node, hnode.fields _ hnew⟩
  case zone =>
    intro z hz
    rw [hzone] at hz
    rcases Option.or_eq_some_iff.1 hz with hnew | ⟨-, hold⟩
    · obtain ⟨q, hq⟩ := hnode.zone (by simp [hnew])
      exact .inr ⟨q, List.mem_singleton.2 hq.symm⟩
    · exact .inl hold
  case chronology =>
    intro c hc
    rw [hchronology] at hc
    rcases Option.or_eq_some_iff.1 hc with hnew | ⟨-, hold⟩
    · obtain ⟨style, hstyle⟩ := hnode.chronology (by simp [hnew])
      exact .inr ⟨style, List.mem_singleton.2 hstyle.symm⟩
    · exact .inl hold

namespace Node

section

variable {expand : Node → Mode → Components → List Char → ReadResult} {st : Settings}

mutual

/-- Induction on the tree. The components that an instant is read into are not those that are passed
along, so that only its two values count. -/
theorem adds_of_readWith :
    ∀ (node : Node) (m : Mode) (v : Components) (text : List Char) {after : Mode} {w : Components}
      {rest : List Char}, (∀ l, localized l ∉ node.subnodes) →
      readWith expand st node m v text = (after, .ok (w, rest)) → v.Adds node.subnodes w
  | .leaf l, m, v, text, after, w, rest, _, h => by
      simp only [readWith, Prod.mk.injEq] at h
      simp only [subnodes]
      exact Components.adds_of_addResult (fun r hr => Leaf.namedBy_of_read hr) h.2
  | .mode change, m, v, text, after, w, rest, _, h => by
      simp only [readWith, Prod.mk.injEq, Except.ok.injEq] at h
      obtain ⟨-, rfl, -⟩ := h
      exact .refl _ _
  | .instant, m, v, text, after, w, rest, _, h => by
      rcases hparts : expand Iso.instantParts .initial .empty text with ⟨ownMode, e | ⟨own, beyond⟩⟩
      · simp [readWith, hparts] at h
      · simp only [readWith, hparts, Prod.mk.injEq] at h
        simp only [subnodes]
        exact Components.adds_of_addResult (fun r hr => namedBy_of_instantReading hr) h.2
  | .localized l, m, v, text, after, w, rest, hnone, _ => by
      exact absurd (mem_subnodes_self (localized l)) (hnone l)
  | .pad inner width fill, m, v, text, after, w, rest, hnone, h => by
      have hinner : ∀ l, localized l ∉ inner.subnodes := by
        intro l hl
        exact hnone l (by rw [subnodes]; exact List.mem_cons_of_mem _ hl)
      simp only [readWith] at h
      split at h
      · generalize hread : readWith expand st inner m v _ = result at h
        obtain ⟨final, stop | ⟨u, beyond⟩⟩ := result
        · simp [Mode.leaveWindowWith] at h
        · obtain rfl : u = w := by
            simp only [Mode.leaveWindowWith, Prod.mk.injEq] at h
            split at h
            · simp at h
            · simp only [Except.ok.injEq, Prod.mk.injEq] at h
              exact h.2.1
          refine (adds_of_readWith inner m v _ hinner hread).mono fun part hpart => ?_
          rw [subnodes]
          exact List.mem_cons_of_mem _ hpart
      · simp at h
  | .group nodes optional, m, v, text, after, w, rest, hnone, h => by
      have hnodes : ∀ l, localized l ∉ subnodesAll nodes := by
        intro l hl
        exact hnone l (by rw [subnodes]; exact List.mem_cons_of_mem _ hl)
      have hall : ∀ {w : Components} {rest : List Char},
          readAllWith expand st nodes m v text = (after, .ok (w, rest)) →
            v.Adds (group nodes optional).subnodes w := by
        intro w rest hread
        refine (adds_of_readAllWith nodes m v text hnodes hread).mono fun part hpart => ?_
        rw [subnodes]
        exact List.mem_cons_of_mem _ hpart
      cases optional with
      | false =>
          simp only [readWith] at h
          exact hall h
      | true =>
          simp only [readWith] at h
          split at h
          · simp only [Prod.mk.injEq, Except.ok.injEq] at h
            obtain ⟨-, rfl, -⟩ := h
            exact .refl _ _
          · exact hall h

theorem adds_of_readAllWith :
    ∀ (nodes : List Node) (m : Mode) (v : Components) (text : List Char) {after : Mode}
      {w : Components} {rest : List Char}, (∀ l, localized l ∉ subnodesAll nodes) →
      readAllWith expand st nodes m v text = (after, .ok (w, rest)) →
      v.Adds (subnodesAll nodes) w
  | [], m, v, text, after, w, rest, _, h => by
      simp only [readAllWith, Prod.mk.injEq, Except.ok.injEq] at h
      obtain ⟨-, rfl, -⟩ := h
      exact .refl _ _
  | node :: nodes, m, v, text, after, w, rest, hnone, h => by
      simp only [subnodesAll, List.mem_append, not_or] at hnone
      have hnode : ∀ part ∈ node.subnodes, part ∈ subnodesAll (node :: nodes) := by
        intro part hpart
        rw [subnodesAll]
        exact List.mem_append_left _ hpart
      have hnodes : ∀ part ∈ subnodesAll nodes, part ∈ subnodesAll (node :: nodes) := by
        intro part hpart
        rw [subnodesAll]
        exact List.mem_append_right _ hpart
      simp only [readAllWith] at h
      split at h
      · rename_i final u beyond hread
        have hfirst := adds_of_readWith node m v text (fun l => (hnone l).1) hread
        have hothers := adds_of_readAllWith nodes final u beyond (fun l => (hnone l).2) h
        exact (hfirst.mono hnode).trans (hothers.mono hnodes)
      · rename_i hnot
        exact absurd h (hnot after w rest)

end

end

/-- Whatever the depth, a tree that is read adds nothing but what it names. -/
theorem adds_of_parseTo {st : Settings} (depth : Nat) {node : Node}
    (hnone : ∀ l, localized l ∉ node.subnodes) {c after : Context} {text rest : List Char}
    (h : node.parseTo st depth c text = (after, .ok rest)) :
    c.current.Adds node.subnodes after.current := by
  have hread := result_parseTo st depth node c text
  rw [h] at hread
  cases depth with
  | zero => exact adds_of_readWith node c.mode c.current text hnone hread.symm
  | succ depth => exact adds_of_readWith node c.mode c.current text hnone hread.symm

/-! ### Writing -/

/-- Two values that have the same zone, the same chronology and the same of each field that is
written below a node. -/
structure AgreeOn (node : Node) (v w : Components) : Prop where
  field : ∀ part ∈ node.subnodes, ∀ f ∈ part.fieldsWritten, v.field f = w.field f
  zone : v.zone = w.zone
  chronology : v.chronology = w.chronology

end Node

variable {st : Settings} {v w : Components}

theorem Leaf.render_congr {l : Leaf} (hfield : ∀ f ∈ l.fieldsWritten, v.field f = w.field f)
    (hzone : v.zone = w.zone) (hchronology : v.chronology = w.chronology) :
    l.render st v = l.render st w := by
  cases l with
  | literal l => rfl
  | numeral n => rw [render, render, hfield n.field List.mem_cons_self]
  | fraction n => rw [render, render, hfield n.field List.mem_cons_self]
  | text n => rw [render, render, hfield n.field List.mem_cons_self]
  | offset o => rw [render, render, hfield .offsetSeconds List.mem_cons_self]
  | zone q =>
      cases q with
      | zone => rw [render, render, ZoneQuery.find, ZoneQuery.find, hzone]
      | region => rw [render, render, ZoneQuery.find, ZoneQuery.find, hzone]
      | zoneOrOffset =>
          rw [render, render, ZoneQuery.find, ZoneQuery.find, hzone,
            hfield .offsetSeconds List.mem_cons_self]
  | zoneText style => rw [render, render, hzone]
  | chronology style => rw [render, render, hchronology]

namespace Node

section

variable {expand expand' : Node → Except FormatError (Option (List Char))}

mutual

/-- Localized patterns apart, nothing is asked of what they expand to. -/
theorem renderWith_congr (hzone : v.zone = w.zone) (hchronology : v.chronology = w.chronology) :
    ∀ node : Node, (∀ l, localized l ∉ node.subnodes) →
      (∀ part ∈ node.subnodes, ∀ f ∈ part.fieldsWritten, v.field f = w.field f) →
      renderWith expand st v node = renderWith expand' st w node
  | .leaf l, _, hfield => by
      simp only [renderWith]
      exact Leaf.render_congr (hfield _ (mem_subnodes_self _)) hzone hchronology
  | .mode change, _, _ => by simp only [renderWith]
  | .instant, _, hfield => by
      have hown := hfield _ (mem_subnodes_self instant)
      simp only [renderWith, Instant.renderComponents]
      rw [hown .instantSeconds (by simp [fieldsWritten, fields]),
        hown .nanoOfSecond (by simp [fieldsWritten, fields])]
  | .localized l, hnone, _ => absurd (mem_subnodes_self (localized l)) (hnone l)
  | .pad inner width fill, hnone, hfield => by
      simp only [subnodes, List.mem_cons, forall_eq_or_imp] at hnone hfield
      simp only [renderWith]
      rw [renderWith_congr hzone hchronology inner (fun l hl => hnone l (.inr hl)) hfield.2]
  | .group nodes optional, hnone, hfield => by
      simp only [subnodes, List.mem_cons, forall_eq_or_imp] at hnone hfield
      simp only [renderWith]
      rw [renderAllWith_congr hzone hchronology nodes (fun l hl => hnone l (.inr hl)) hfield.2]

theorem renderAllWith_congr (hzone : v.zone = w.zone) (hchronology : v.chronology = w.chronology) :
    ∀ nodes : List Node, (∀ l, localized l ∉ subnodesAll nodes) →
      (∀ part ∈ subnodesAll nodes, ∀ f ∈ part.fieldsWritten, v.field f = w.field f) →
      renderAllWith expand st v nodes = renderAllWith expand' st w nodes
  | [], _, _ => by simp only [renderAllWith]
  | node :: nodes, hnone, hfield => by
      simp only [subnodesAll, List.mem_append, not_or] at hnone
      simp only [subnodesAll, List.forall_mem_append] at hfield
      simp only [renderAllWith]
      rw [renderWith_congr hzone hchronology node (fun l => (hnone l).1) hfield.1,
        renderAllWith_congr hzone hchronology nodes (fun l => (hnone l).2) hfield.2]

end

end

/-- Values that agree on what a tree names are written alike. -/
theorem AgreeOn.render_eq {node : Node} (h : node.AgreeOn v w)
    (hnone : ∀ l, localized l ∉ node.subnodes) : node.render st v = node.render st w :=
  renderWith_congr h.zone h.chronology node hnone h.field

end Node

end DateTimeText
