import DateTimeText.Node.Read
import DateTimeText.Proofs.Node.Expansion

/-!
# Snapshots and copies

Reading with a stack of snapshots does what reading with copies does: both stop at the same text,
the components on top of the stack are the copy that is passed along, and whatever a node does,
below the top the stack stays as it was. So each section ends on the snapshot that it started with.
-/

namespace DateTimeText

namespace Components

theorem set_eq_self {v : Components} {f : Field} {x : Int} (h : v.field f = some x) :
    v.set f x = v := by
  refine Components.ext (funext fun g => ?_) rfl rfl
  by_cases hg : g = f
  · simp [hg, h]
  · simp [hg]

end Components

namespace Context

theorem storeFields_of_addFields? {c : Context} {fields : List (Field × Int)} {w : Components}
    (h : c.current.addFields? fields = some w) :
    c.storeFields fields = ({ c with current := w }, true) := by
  induction fields generalizing c with
  | nil =>
      cases h
      rfl
  | cons p fields ih =>
      obtain ⟨f, x⟩ := p
      cases hf : c.current.field f with
      | none =>
          have hrest : (c.current.set f x).addFields? fields = some w := by
            simpa [Components.addFields?, hf] using h
          simpa [storeFields, hf] using ih (c := { c with current := c.current.set f x }) hrest
      | some old =>
          by_cases hx : old = x
          · subst hx
            have hrest : c.current.addFields? fields = some w := by
              simpa [Components.addFields?, hf] using h
            simpa [storeFields, hf, Components.set_eq_self hf] using ih hrest
          · simp [Components.addFields?, hf, hx] at h

/-- A contradiction is found by both, but the stack has stored the value that contradicts. -/
theorem storeFields_of_addFields?_eq_none {c : Context} {fields : List (Field × Int)}
    (h : c.current.addFields? fields = none) :
    ∃ w, c.storeFields fields = ({ c with current := w }, false) := by
  induction fields generalizing c with
  | nil => simp [Components.addFields?] at h
  | cons p fields ih =>
      obtain ⟨f, x⟩ := p
      cases hf : c.current.field f with
      | none =>
          have hrest : (c.current.set f x).addFields? fields = none := by
            simpa [Components.addFields?, hf] using h
          simpa [storeFields, hf] using ih (c := { c with current := c.current.set f x }) hrest
      | some old =>
          by_cases hx : old = x
          · subst hx
            have hrest : c.current.addFields? fields = none := by
              simpa [Components.addFields?, hf] using h
            simpa [storeFields, hf, Components.set_eq_self hf] using ih hrest
          · exact ⟨c.current.set f x, by simp [storeFields, hf, hx]⟩

theorem storeChronology_storeZone (c : Context) (zone : Option ZoneId)
    (chronology : Option Chronology) :
    (c.storeZone zone).storeChronology chronology =
      { c with current := { c.current with
        zone := zone.or c.current.zone, chronology := chronology.or c.current.chronology } } := by
  cases zone <;> cases chronology <;> rfl

end Context

/-- A result with snapshots, above the snapshots `saved`, beside a result with copies. What is on
top counts only if the node was read. -/
inductive Refines (saved : List Components) : Parsed → ReadResult → Prop
  | ok (m : Mode) (v : Components) (rest : List Char) :
      Refines saved (⟨m, v, saved⟩, .ok rest) (m, .ok (v, rest))
  | error (m : Mode) (v : Components) (rest : List Char) :
      Refines saved (⟨m, v, saved⟩, .error rest) (m, .error rest)

theorem Context.storeResult_refines (c : Context) (r : Except (List Char) Reading) :
    Refines c.saved (c.storeResult r) (c.mode, c.current.addResult r) := by
  cases r with
  | error rest => exact .error c.mode c.current rest
  | ok reading =>
      cases h : c.current.addFields? reading.fields with
      | none =>
          obtain ⟨w, hw⟩ := c.storeFields_of_addFields?_eq_none h
          simp only [storeResult, store, hw, Components.addResult, Components.add?, h,
            Option.map_none]
          exact .error c.mode w reading.conflictAt
      | some w =>
          simp only [storeResult, store, c.storeFields_of_addFields? h, Components.addResult,
            Components.add?, h, Option.map_some, storeChronology_storeZone]
          exact .ok c.mode _ reading.rest

namespace Node

section

variable {expand : Node → Context → List Char → Parsed}
  {expandCopy : Node → Mode → Components → List Char → ReadResult} {s : Settings}

mutual

/-- Induction on the tree: a section starts its nodes with one more snapshot and ends on it. -/
theorem parseWith_refines
    (h : ∀ node c text,
      Refines c.saved (expand node c text) (expandCopy node c.mode c.current text)) :
    ∀ (node : Node) (c : Context) (text : List Char),
      Refines c.saved (parseWith expand s node c text)
        (readWith expandCopy s node c.mode c.current text)
  | .leaf l, c, text => by
      simp only [parseWith, readWith]
      exact c.storeResult_refines _
  | .mode change, c, text => by
      simp only [parseWith, readWith]
      exact .ok _ _ _
  | .instant, c, text => by
      have hparts := h Iso.instantParts .initial text
      simp only [parseWith, readWith]
      generalize expand Iso.instantParts .initial text = p at hparts
      generalize hr : expandCopy Iso.instantParts .initial .empty text = r
      replace hparts : Refines [] p r := hr ▸ hparts
      cases hparts with
      | ok m own rest => exact c.storeResult_refines _
      | error m own rest => exact .error c.mode c.current rest
  | .localized l, c, text => by
      simp only [parseWith, readWith]
      cases l.nodes s (s.parseChronology c.current) with
      | error e => exact .error c.mode c.current text
      | ok nodes => exact h (group nodes false) c text
  | .pad inner width fill, c, text => by
      have hinner := parseWith_refines h inner c (c.mode.dropFill fill (text.take width))
      simp only [parseWith, readWith]
      by_cases hw : c.mode.admitsWindow width text = true
      · simp only [hw, if_true]
        generalize parseWith expand s inner c _ = p at hinner ⊢
        generalize readWith expandCopy s inner c.mode c.current _ = r at hinner ⊢
        cases hinner with
        | ok m v rest =>
            simp only [Mode.leaveWindow, Mode.leaveWindowWith]
            split
            · exact .error m v _
            · exact .ok m v _
        | error m v rest => exact .error m v _
      · simp only [hw]
        exact .error c.mode c.current text
  | .group nodes false, c, text => by
      simp only [parseWith, readWith]
      exact parseAllWith_refines h nodes c text
  | .group nodes true, c, text => by
      have hnodes := parseAllWith_refines h nodes c.startOptional text
      simp only [parseWith, readWith]
      change Refines _ _ (readAllWith expandCopy s nodes c.mode c.current text) at hnodes
      generalize parseAllWith expand s nodes c.startOptional text = p at hnodes
      generalize readAllWith expandCopy s nodes c.mode c.current text = r at hnodes
      cases hnodes with
      | ok m v rest => exact .ok m v rest
      | error m v rest => exact .ok m c.current text

theorem parseAllWith_refines
    (h : ∀ node c text,
      Refines c.saved (expand node c text) (expandCopy node c.mode c.current text)) :
    ∀ (nodes : List Node) (c : Context) (text : List Char),
      Refines c.saved (parseAllWith expand s nodes c text)
        (readAllWith expandCopy s nodes c.mode c.current text)
  | [], c, text => by
      simp only [parseAllWith, readAllWith]
      exact .ok c.mode c.current text
  | node :: nodes, c, text => by
      have hnode := parseWith_refines h node c text
      simp only [parseAllWith, readAllWith]
      generalize parseWith expand s node c text = p at hnode
      generalize readWith expandCopy s node c.mode c.current text = r at hnode
      cases hnode with
      | ok m v rest => exact parseAllWith_refines h nodes ⟨m, v, c.saved⟩ rest
      | error m v rest => exact .error m v rest

end

end

/-- The same at every depth of instants and localized patterns. -/
theorem parseTo_refines (s : Settings) (depth : Nat) (node : Node) (c : Context)
    (text : List Char) :
    Refines c.saved (parseTo s depth node c text)
      (readTo s depth node c.mode c.current text) := by
  induction depth generalizing node c text with
  | zero => exact parseWith_refines (fun _ c text => .error c.mode c.current text) node c text
  | succ depth ih => exact parseWith_refines ih node c text

theorem saved_parseTo (s : Settings) (depth : Nat) (node : Node) (c : Context)
    (text : List Char) : (parseTo s depth node c text).1.saved = c.saved := by
  have h := parseTo_refines s depth node c text
  generalize parseTo s depth node c text = p at h ⊢
  generalize readTo s depth node c.mode c.current text = r at h
  cases h <;> rfl

theorem result_parseTo (s : Settings) (depth : Nat) (node : Node) (c : Context)
    (text : List Char) :
    ((parseTo s depth node c text).1.mode,
        (parseTo s depth node c text).2.map fun rest =>
          ((parseTo s depth node c text).1.current, rest)) =
      readTo s depth node c.mode c.current text := by
  have h := parseTo_refines s depth node c text
  generalize parseTo s depth node c text = p at h ⊢
  generalize readTo s depth node c.mode c.current text = r at h ⊢
  cases h <;> rfl

/-- Reading with snapshots leaves the mode and stops at the text that reading with copies does, with
the copy on top of the stack if the node was read, and never changes the stack below the top. At
every depth of expansion the nodes of a section are read as a group under one more snapshot, and
when they are done, read or not, this snapshot is the next on the stack: no section ends on an empty
stack. More depth than that of `parse` changes nothing. -/
theorem parse_eq_read_and_saved (s : Settings) (node : Node) (c : Context) (text : List Char) :
    ((node.parse s c text).1.mode,
        (node.parse s c text).2.map fun rest => ((node.parse s c text).1.current, rest)) =
      node.read s c.mode c.current text ∧
    (node.parse s c text).1.saved = c.saved ∧
    (∀ (depth : Nat) (nodes : List Node),
      (parseTo s depth (group nodes false) c.startOptional text).1.saved =
        c.current :: c.saved) ∧
    ∀ depth, parseTo s (depth + 1) node c text = node.parse s c text := by
  refine ⟨result_parseTo s 1 node c text, saved_parseTo s 1 node c text, ?_, ?_⟩
  · intro depth nodes
    exact saved_parseTo s depth (group nodes false) c.startOptional text
  · intro depth
    exact parseTo_succ s depth node c text

end Node

end DateTimeText
