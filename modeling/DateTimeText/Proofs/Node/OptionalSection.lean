import DateTimeText.Proofs.Builder.PatternNodes
import DateTimeText.Proofs.Node.Snapshots

/-!
# Sections that are not read

An optional section that is not read gives the components back as they were before it, and the stack
below them. The mode is not given back: what the section changed of it before the mismatch is in
force for the nodes that follow. Only nodes that change the mode do so, and patterns hold none.
-/

namespace DateTimeText.Node

mutual

/-- Whether a node changes the mode somewhere. The parts of an instant change one of their own. -/
def setsMode : Node → Bool
  | leaf _ => false
  | mode _ => true
  | instant => false
  | localized _ => false
  | pad inner _ _ => setsMode inner
  | group nodes _ => anySetsMode nodes

def anySetsMode : List Node → Bool
  | [] => false
  | node :: nodes => setsMode node || anySetsMode nodes

end

theorem anySetsMode_eq_false_iff {nodes : List Node} :
    anySetsMode nodes = false ↔ ∀ node ∈ nodes, node.setsMode = false := by
  induction nodes with
  | nil => simp [anySetsMode]
  | cons node nodes ih => simp [anySetsMode, ih]

theorem keptByPatterns_setsMode : KeptByPatterns fun node => node.setsMode = false where
  leaf _ := rfl
  pad _ _ _ h := h
  optional _ h := anySetsMode_eq_false_iff.2 h

section

variable {expand : Node → Mode → Components → List Char → ReadResult} {s : Settings}

mutual

/-- A node without changes of the mode leaves the mode, also where it stops. -/
theorem mode_readWith
    (h : ∀ nodes m v text, anySetsMode nodes = false →
      (expand (group nodes false) m v text).1 = m) :
    ∀ (node : Node) (m : Mode) (v : Components) (text : List Char),
      node.setsMode = false → (readWith expand s node m v text).1 = m
  | .leaf l, m, v, text, _ => by simp only [readWith]
  | .mode change, m, v, text, hnode => by simp [setsMode] at hnode
  | .instant, m, v, text, _ => by
      simp only [readWith]
      split <;> rfl
  | .localized l, m, v, text, _ => by
      simp only [readWith]
      split
      · rfl
      · rename_i nodes hnodes
        exact h nodes m v text
          (anySetsMode_eq_false_iff.2 (LocalizedText.forall_nodes keptByPatterns_setsMode hnodes))
  | .pad inner width fill, m, v, text, hnode => by
      simp only [readWith]
      split
      · exact mode_readWith h inner m v _ hnode
      · rfl
  | .group nodes false, m, v, text, hnode => by
      simp only [readWith]
      exact mode_readAllWith h nodes m v text hnode
  | .group nodes true, m, v, text, hnode => by
      have hall := mode_readAllWith h nodes m v text hnode
      simp only [readWith]
      split
      · rename_i hr
        simpa [hr] using hall
      · exact hall

theorem mode_readAllWith
    (h : ∀ nodes m v text, anySetsMode nodes = false →
      (expand (group nodes false) m v text).1 = m) :
    ∀ (nodes : List Node) (m : Mode) (v : Components) (text : List Char),
      anySetsMode nodes = false → (readAllWith expand s nodes m v text).1 = m
  | [], m, v, text, _ => by simp only [readAllWith]
  | node :: nodes, m, v, text, hnodes => by
      obtain ⟨hnode, hrest⟩ : node.setsMode = false ∧ anySetsMode nodes = false := by
        simpa [anySetsMode] using hnodes
      have hm := mode_readWith h node m v text hnode
      simp only [readAllWith]
      split
      · rename_i after w rest hr
        rw [mode_readAllWith h nodes after w rest hrest]
        simpa [hr] using hm
      · exact hm

end

end

theorem mode_readTo {s : Settings} (depth : Nat) (node : Node) (hnode : node.setsMode = false)
    (m : Mode) (v : Components) (text : List Char) : (readTo s depth node m v text).1 = m := by
  induction depth generalizing node m v text with
  | zero => exact mode_readWith (fun _ _ _ _ _ => rfl) node m v text hnode
  | succ depth ih =>
      have hexpand : ∀ nodes m v text, anySetsMode nodes = false →
          (readTo s depth (group nodes false) m v text).1 = m :=
        fun nodes m v text hnodes => ih (group nodes false) hnodes m v text
      exact mode_readWith hexpand node m v text hnode

theorem mode_parse (s : Settings) (node : Node) (hnode : node.setsMode = false) (c : Context)
    (text : List Char) : (node.parse s c text).1.mode = c.mode :=
  (congrArg Prod.fst (result_parseTo s 1 node c text)).trans
    (mode_readTo 1 node hnode c.mode c.current text)

theorem parse_section (s : Settings) (nodes : List Node) (c : Context) (text : List Char) :
    (group nodes true).parse s c text =
      match (group nodes false).parse s c.startOptional text with
      | (after, .ok rest) => (after.endOptional true, .ok rest)
      | (after, .error _) => (after.endOptional false, .ok text) := by
  rw [parse, parseTo, parseWith]
  rfl

theorem parse_group_cons (s : Settings) (node : Node) (nodes : List Node) (c : Context)
    (text : List Char) :
    (group (node :: nodes) false).parse s c text =
      match node.parse s c text with
      | (after, .ok rest) => (group nodes false).parse s after rest
      | other => other := by
  rw [parse, parseTo, parseWith, parseAllWith]
  rfl

/-- A section of which a node is not read takes nothing from the text and leaves the context as it
was but for the mode, which is the one in force at the mismatch. The nodes that follow are read as
they are in that mode without the section. A section that holds no change of the mode leaves no
trace at all. -/
theorem parse_section_of_error {s : Settings} {nodes : List Node} {c after : Context}
    {text e : List Char}
    (h : (group nodes false).parse s c.startOptional text = (after, .error e)) :
    (group nodes true).parse s c text = ({ c with mode := after.mode }, .ok text) ∧
    (∀ rest, (group (group nodes true :: rest) false).parse s c text =
      (group rest false).parse s { c with mode := after.mode } text) ∧
    (anySetsMode nodes = false → after.mode = c.mode) := by
  have hsaved : after.saved = c.current :: c.saved := by
    have hs := saved_parseTo s 1 (group nodes false) c.startOptional text
    rwa [show parseTo s 1 (group nodes false) c.startOptional text = _ from h] at hs
  have hsection :
      (group nodes true).parse s c text = ({ c with mode := after.mode }, .ok text) := by
    rw [parse_section, h]
    simp [Context.endOptional, hsaved]
  refine ⟨hsection, fun rest => ?_, fun hnodes => ?_⟩
  · rw [parse_group_cons, hsection]
  · have hm := mode_parse s (group nodes false) hnodes c.startOptional text
    rwa [h] at hm

/-- The hour that is read before the mismatch is forgotten, the minute from before the section and
the snapshot below are kept. -/
theorem parse_section_of_error_hour :
    ∃ after,
      (group [mode .lenient, Iso.twoDigits .hourOfDay, literal ['x']] false).parse .root
          (Context.startOptional ⟨.initial, Components.empty.set .minuteOfHour 5, [.empty]⟩)
          ['7', ':'] = (after, .error [':']) ∧
      after.current.field .hourOfDay = some 7 ∧ after.mode = ⟨true, false⟩ ∧
      (group [mode .lenient, Iso.twoDigits .hourOfDay, literal ['x']] true).parse .root
          ⟨.initial, Components.empty.set .minuteOfHour 5, [.empty]⟩ ['7', ':'] =
        (⟨after.mode, Components.empty.set .minuteOfHour 5, [.empty]⟩, .ok ['7', ':']) :=
  ⟨_, rfl, rfl, rfl, (parse_section_of_error rfl).1⟩

/-- A lenient mode outlasts the section that was not read: the hour of one digit is read after it
and not without it. -/
theorem lenient_after_section_of_error :
    ((group [mode .lenient, literal ['x']] false).parse .root Context.initial.startOptional
        ['7']).2 = .error ['7'] ∧
      ((group [mode .lenient, literal ['x']] true).parse .root .initial ['7']).1 ≠ .initial ∧
      ((group [group [mode .lenient, literal ['x']] true, Iso.twoDigits .hourOfDay] false).parse
        .root .initial ['7']).2 = .ok [] ∧
      ((group [Iso.twoDigits .hourOfDay] false).parse .root .initial ['7']).2 = .error ['7'] := by
  refine ⟨rfl, fun h => ?_, rfl, rfl⟩
  exact absurd (congrArg (fun c => c.mode.strict) h) (by decide)

end DateTimeText.Node
