import DateTimeText.Node.Parse
import DateTimeText.Node.Print
import DateTimeText.Proofs.Builder.PatternNodes

/-!
# Instants and patterns inside each other

Reading an instant and reading a localized pattern lead to further nodes. These lead no further: the
parts of an instant hold neither instants nor localized patterns, and nor does a pattern. So a node
is read alike at every depth that is not zero. The same goes for writing, where only a localized
pattern leads to further nodes.
-/

namespace DateTimeText.Node

mutual

/-- Whether reading a node leads to nodes that are not below it. -/
def expands : Node → Bool
  | leaf _ => false
  | mode _ => false
  | instant => true
  | localized _ => true
  | pad inner _ _ => expands inner
  | group nodes _ => anyExpands nodes

def anyExpands : List Node → Bool
  | [] => false
  | node :: nodes => expands node || anyExpands nodes

end

theorem anyExpands_eq_false_iff {nodes : List Node} :
    anyExpands nodes = false ↔ ∀ node ∈ nodes, node.expands = false := by
  induction nodes with
  | nil => simp [anyExpands]
  | cons node nodes ih => simp [anyExpands, ih]

theorem keptByPatterns_expands : KeptByPatterns fun node => node.expands = false where
  leaf _ := rfl
  pad _ _ _ h := h
  optional _ h := anyExpands_eq_false_iff.2 h

theorem expands_instantParts : Iso.instantParts.expands = false := by
  decide

section

variable {f g : Node → Context → List Char → Parsed} {s : Settings}

mutual

/-- Reading asks for further nodes only where a node expands, and only for such that do not. -/
theorem parseWith_congr :
    ∀ (node : Node) (c : Context) (text : List Char),
      (node.expands = true → ∀ other, other.expands = false → f other = g other) →
      parseWith f s node c text = parseWith g s node c text
  | .leaf l, c, text, _ => by simp only [parseWith]
  | .mode change, c, text, _ => by simp only [parseWith]
  | .instant, c, text, h => by
      simp only [parseWith]
      rw [h rfl _ expands_instantParts]
  | .localized l, c, text, h => by
      simp only [parseWith]
      cases hnodes : l.nodes s (s.parseChronology c.current) with
      | error e => rfl
      | ok nodes =>
          have hflat : (group nodes false).expands = false :=
            anyExpands_eq_false_iff.2 (LocalizedText.forall_nodes keptByPatterns_expands hnodes)
          exact congrFun (congrFun (h rfl _ hflat) c) text
  | .pad inner width fill, c, text, h => by
      simp only [parseWith]
      rw [parseWith_congr inner c _ h]
  | .group nodes false, c, text, h => by
      simp only [parseWith]
      exact parseAllWith_congr nodes c text h
  | .group nodes true, c, text, h => by
      simp only [parseWith]
      rw [parseAllWith_congr nodes c.startOptional text h]

theorem parseAllWith_congr :
    ∀ (nodes : List Node) (c : Context) (text : List Char),
      (anyExpands nodes = true → ∀ other, other.expands = false → f other = g other) →
      parseAllWith f s nodes c text = parseAllWith g s nodes c text
  | [], c, text, _ => by simp only [parseAllWith]
  | node :: nodes, c, text, h => by
      have hnode : node.expands = true →
          ∀ other, other.expands = false → f other = g other := by
        intro he
        exact h (by rw [anyExpands, he, Bool.true_or])
      have hnodes : anyExpands nodes = true →
          ∀ other, other.expands = false → f other = g other := by
        intro he
        exact h (by rw [anyExpands, he, Bool.or_true])
      simp only [parseAllWith]
      rw [parseWith_congr node c text hnode]
      split
      · exact parseAllWith_congr nodes _ _ hnodes
      · rfl

end

end

theorem parseTo_of_not_expands (s : Settings) (depth : Nat) {node : Node}
    (h : node.expands = false) : parseTo s depth node = parseTo s 0 node := by
  funext c text
  cases depth with
  | zero => rfl
  | succ depth => exact parseWith_congr node c text fun he => absurd (he.symm.trans h) (by decide)

/-- Every depth that is not zero is enough. -/
theorem parseTo_succ (s : Settings) (depth : Nat) (node : Node) (c : Context)
    (text : List Char) : parseTo s (depth + 1) node c text = node.parse s c text :=
  parseWith_congr node c text fun _ _ h => parseTo_of_not_expands s depth h

section

variable {f g : Node → List Char → Printed} {s : Settings} {v : Components}

mutual

/-- Writing asks for further nodes only where a node expands, and only for such that do not. -/
theorem printWith_congr :
    ∀ (node : Node) (buffer : List Char),
      (node.expands = true → ∀ other, other.expands = false → f other = g other) →
      printWith f s v node buffer = printWith g s v node buffer
  | .leaf l, buffer, _ => by simp only [printWith]
  | .mode change, buffer, _ => by simp only [printWith]
  | .instant, buffer, _ => by simp only [printWith]
  | .localized l, buffer, h => by
      simp only [printWith]
      cases hnodes : l.nodes s (s.printChronology v) with
      | error e => rfl
      | ok nodes =>
          have hflat : (group nodes false).expands = false :=
            anyExpands_eq_false_iff.2 (LocalizedText.forall_nodes keptByPatterns_expands hnodes)
          exact congrFun (h rfl _ hflat) buffer
  | .pad inner width fill, buffer, h => by
      simp only [printWith]
      rw [printWith_congr inner buffer h]
  | .group nodes optional, buffer, h => by
      simp only [printWith]
      rw [printAllWith_congr nodes buffer h]

theorem printAllWith_congr :
    ∀ (nodes : List Node) (buffer : List Char),
      (anyExpands nodes = true → ∀ other, other.expands = false → f other = g other) →
      printAllWith f s v nodes buffer = printAllWith g s v nodes buffer
  | [], buffer, _ => by simp only [printAllWith]
  | node :: nodes, buffer, h => by
      have hnode : node.expands = true →
          ∀ other, other.expands = false → f other = g other := by
        intro he
        exact h (by rw [anyExpands, he, Bool.true_or])
      have hnodes : anyExpands nodes = true →
          ∀ other, other.expands = false → f other = g other := by
        intro he
        exact h (by rw [anyExpands, he, Bool.or_true])
      simp only [printAllWith]
      rw [printWith_congr node buffer hnode]
      split
      · exact printAllWith_congr nodes _ hnodes
      · rfl

end

end

theorem printTo_of_not_expands (s : Settings) (v : Components) (depth : Nat) {node : Node}
    (h : node.expands = false) : printTo s v depth node = printTo s v 0 node := by
  funext buffer
  cases depth with
  | zero => rfl
  | succ depth => exact printWith_congr node buffer fun he => absurd (he.symm.trans h) (by decide)

theorem printTo_succ (s : Settings) (v : Components) (depth : Nat) (node : Node)
    (buffer : List Char) : printTo s v (depth + 1) node buffer = node.print s v buffer :=
  printWith_congr node buffer fun _ _ h => printTo_of_not_expands s v depth h

end DateTimeText.Node
