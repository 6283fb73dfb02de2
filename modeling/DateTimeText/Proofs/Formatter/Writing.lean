import DateTimeText.Formatter
import DateTimeText.Proofs.Node.Rendering

/-!
# Writing with a formatter

A formatter appends the text of its nodes to a buffer. Whenever it fails the buffer is as it was,
also where a node that failed has left a part of its text in it.
-/

namespace DateTimeText.Formatter

theorem formatTo_eq (f : Formatter) (v : Components) (buffer : List Char) :
    f.formatTo v buffer =
      match f.root.render f.settings v with
      | .ok (some text) => (buffer ++ text, .ok ())
      | .ok none => (buffer, .error (.print .unavailable))
      | .error e => (buffer, .error e) := by
  have hroot := (f.root.print_writes f.settings v buffer).eq
  unfold formatTo
  rcases hr : f.root.render f.settings v with e | _ | text
  · rw [hr] at hroot
    obtain ⟨part, hpart⟩ := hroot
    simp only [hpart, List.take_left]
  · rw [hr] at hroot
    simp only [hroot, List.take_length]
  · rw [hr] at hroot
    simp only [hroot]

theorem format_eq (f : Formatter) (v : Components) :
    f.format v =
      match f.root.render f.settings v with
      | .ok (some text) => .ok text
      | .ok none => .error (.print .unavailable)
      | .error e => .error e := by
  unfold format
  rw [formatTo_eq]
  rcases f.root.render f.settings v with e | _ | text
  · rfl
  · rfl
  · rfl

theorem format_of_render {f : Formatter} {v : Components} {text : List Char}
    (h : f.root.render f.settings v = .ok (some text)) : f.format v = .ok text := by
  rw [format_eq, h]

/-- A formatter of one node writes what the node does. -/
theorem format_node {node : Node} {s : Settings} {v : Components} {text : List Char}
    (h : node.render s v = .ok (some text)) : (Formatter.mk [node] s).format v = .ok text := by
  apply format_of_render
  exact Node.renderWith_group (Node.renderAllWith_singleton h) false

theorem format_leaf {l : Leaf} {s : Settings} {v : Components} {text : List Char}
    (h : l.render s v = .ok (some text)) : (Formatter.mk [.leaf l] s).format v = .ok text :=
  format_node (show (Node.leaf l).render s v = .ok (some text) from h)

/-- Writing into a buffer, and the texts without one: a node appends its text, leaves the buffer
alone if it has none, and fails where the text does; so do a section, with all of its text or
nothing of it, and a formatter, which leaves the buffer as it was whenever it fails. One level of
localized patterns is all there is. -/
theorem print_eq_render (s : Settings) (v : Components) (buffer : List Char) :
    (∀ node : Node,
      match node.render s v with
      | .ok (some text) => node.print s v buffer = (buffer ++ text, .ok true)
      | .ok none => node.print s v buffer = (buffer, .ok false)
      | .error e => ∃ part, node.print s v buffer = (buffer ++ part, .error e)) ∧
    (∀ (node : Node) (depth : Nat),
      node.printTo s v (depth + 1) buffer = node.print s v buffer ∧
        node.renderTo s v (depth + 1) = node.render s v) ∧
    (∀ nodes : List Node,
      match (Node.group nodes false).render s v with
      | .ok (some text) => (Node.group nodes true).print s v buffer = (buffer ++ text, .ok true)
      | .ok none => (Node.group nodes true).print s v buffer = (buffer, .ok true)
      | .error e => ∃ part, (Node.group nodes true).print s v buffer = (buffer ++ part, .error e)) ∧
    ∀ f : Formatter,
      f.formatTo v buffer =
        match f.root.render f.settings v with
        | .ok (some text) => (buffer ++ text, .ok ())
        | .ok none => (buffer, .error (.print .unavailable))
        | .error e => (buffer, .error e) := by
  refine ⟨?node, ?depth, ?optional, ?formatter⟩
  case node =>
    intro node
    exact (node.print_writes s v buffer).eq
  case depth =>
    intro node depth
    constructor
    · rw [Node.printTo_succ]
    · exact Node.renderTo_succ s v depth node
  case optional =>
    intro nodes
    have hsection := ((Node.group nodes true).print_writes s v buffer).eq
    rw [Node.render_section] at hsection
    rcases hr : (Node.group nodes false).render s v with e | _ | text
    · simpa only [hr] using hsection
    · simpa only [hr, List.append_nil] using hsection
    · simpa only [hr] using hsection
  case formatter =>
    intro f
    exact formatTo_eq f v buffer

end DateTimeText.Formatter
