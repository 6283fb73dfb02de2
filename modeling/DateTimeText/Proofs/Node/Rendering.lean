import DateTimeText.Node.Render
import DateTimeText.Proofs.Node.Expansion

/-!
# Writing into a buffer and texts

Writing a node at the end of a buffer appends the text that the node has without a buffer. Nodes
change what they have written, but nothing that was in the buffer before them: a pad and the era of
an instant are put in behind it, and what is taken back was written behind it. A node that the value
lacks something for leaves the buffer as it was, and only an error leaves a part of its text behind.
-/

namespace DateTimeText

/-- A result of writing behind `buffer`, beside a text: the text is appended, and without one some
part of it is left there. -/
inductive Appends (buffer : List Char) :
    Printed → Except FormatError (Option (List Char)) → Prop
  | text (cs : List Char) : Appends buffer (buffer ++ cs, .ok true) (.ok (some cs))
  | unavailable (part : List Char) : Appends buffer (buffer ++ part, .ok false) (.ok none)
  | error (part : List Char) (e : FormatError) :
      Appends buffer (buffer ++ part, .error e) (.error e)

/-- The same, where nothing is left there if the value lacks something. -/
inductive Writes (buffer : List Char) :
    Printed → Except FormatError (Option (List Char)) → Prop
  | text (cs : List Char) : Writes buffer (buffer ++ cs, .ok true) (.ok (some cs))
  | unavailable : Writes buffer (buffer, .ok false) (.ok none)
  | error (part : List Char) (e : FormatError) : Writes buffer (buffer ++ part, .error e) (.error e)

theorem writes_error (buffer : List Char) (e : FormatError) :
    Writes buffer (buffer, .error e) (.error e) := by
  have h : Writes buffer (buffer ++ [], .error e) (.error e) := .error [] e
  rwa [List.append_nil] at h

theorem writes_empty (buffer : List Char) : Writes buffer (buffer, .ok true) (.ok (some [])) := by
  have h : Writes buffer (buffer ++ [], .ok true) (.ok (some [])) := .text []
  rwa [List.append_nil] at h

theorem appends_empty (buffer : List Char) : Appends buffer (buffer, .ok true) (.ok (some [])) := by
  have h : Appends buffer (buffer ++ [], .ok true) (.ok (some [])) := .text []
  rwa [List.append_nil] at h

theorem Writes.eq {buffer : List Char} {p : Printed}
    {r : Except FormatError (Option (List Char))} :
    Writes buffer p r →
      match r with
      | .ok (some cs) => p = (buffer ++ cs, .ok true)
      | .ok none => p = (buffer, .ok false)
      | .error e => ∃ part, p = (buffer ++ part, .error e) := by
  intro h
  cases h with
  | text cs => rfl
  | unavailable => rfl
  | error part e => exact ⟨part, rfl⟩

/-- What is written determines the text. -/
theorem Writes.unique {buffer : List Char} {p : Printed}
    {r r' : Except FormatError (Option (List Char))} (h : Writes buffer p r)
    (h' : Writes buffer p r') : r = r' := by
  have hp := h'.eq
  cases h with
  | text cs => rcases r' with e | _ | ds <;> simp_all
  | unavailable => rcases r' with e | _ | ds <;> simp_all
  | error part e => rcases r' with e' | _ | ds <;> simp_all

namespace OffsetForm

variable (p : OffsetPattern) (total : Int)

/-- The rest of an offset is written behind its hours, and its number tells whether all of the parts
are zero. -/
theorem printRest_eq (buffer : List Char) :
    ∃ rest : Nat,
      printRest p total (buffer ++ twoDigits (hoursOf total)) =
        (buffer ++ joinParts p (parts p total), rest) ∧
      ((parts p total).all (· == 0) = true ↔ hoursOf total + rest = 0) := by
  unfold printRest parts
  by_cases hm : writes p.minutes (minutesOf total) = true
  · by_cases hs : writes p.seconds (secondsOf total) = true
    · refine ⟨minutesOf total + secondsOf total, ?_, by simp [hm, hs]⟩
      cases hc : p.hasColons <;> simp [hm, hs, hc, joinParts]
    · refine ⟨minutesOf total, ?_, by simp [hm, hs]⟩
      cases hc : p.hasColons <;> simp [hm, hs, hc, joinParts]
  · exact ⟨0, by simp [hm, joinParts], by simp [hm]⟩

theorem parts_zero : (parts p 0).all (· == 0) = true := by
  cases p <;> decide

/-- An offset whose parts are all zero is taken back for the text of a zero offset. -/
theorem print_writes (o : OffsetForm) (value : Option Int) (buffer : List Char) :
    Writes buffer (o.print value buffer) (Leaf.renderField .print o.render value) := by
  cases value with
  | none => exact .unavailable
  | some total =>
      unfold OffsetForm.print Leaf.renderField OffsetForm.render
      by_cases hrange : total < -2147483648 ∨ 2147483647 < total
      · simp only [hrange, if_true]
        exact writes_error _ _
      simp only [hrange, if_false]
      by_cases hzero : total = 0
      · subst hzero
        simp only [parts_zero, if_true]
        exact .text _
      simp only [hzero, if_false]
      obtain ⟨rest, hrest, hall⟩ :=
        printRest_eq o.pattern total (buffer ++ [if total < 0 then '-' else '+'])
      simp only [hrest]
      by_cases hsum : hoursOf total + rest = 0
      · simp only [hsum, hall.2 hsum, if_true, List.append_assoc, List.take_left]
        exact .text _
      · simp only [hsum, mt hall.1 hsum, if_false]
        rw [List.append_assoc]
        exact .text _

end OffsetForm

namespace Instant

/-- A change behind a buffer leaves the buffer as it was. -/
theorem Splice.apply_append (sp : Splice) (buffer text : List Char) :
    sp.apply buffer.length (buffer ++ text) = buffer ++ sp.apply 0 text := by
  simp only [apply, Nat.add_assoc, Nat.zero_add, List.take_length_add_append,
    List.drop_length_add_append, List.append_assoc]

theorem print_writes (v : Components) (buffer : List Char) :
    Writes buffer (Instant.print v buffer) (renderComponents v) := by
  unfold Instant.print renderComponents render
  cases v.field .instantSeconds with
  | none => exact .unavailable
  | some seconds =>
    cases v.field .nanoOfSecond with
    | none => exact .unavailable
    | some nano =>
      dsimp only
      cases Field.nanoOfSecond.range.check .nanoOfSecond nano with
      | error e => exact writes_error _ _
      | ok nano =>
          dsimp only
          cases inEra seconds nano.toNat with
          | error e => exact writes_error _ _
          | ok i =>
              simp only [Splice.apply_append, Except.map]
              exact .text _

end Instant

theorem Leaf.print_writes (s : Settings) (v : Components) (l : Leaf) (buffer : List Char) :
    Writes buffer (l.print s v buffer) (l.render s v) := by
  by_cases hl : ∃ o, l = .offset o
  · obtain ⟨o, rfl⟩ := hl
    exact o.print_writes _ buffer
  · have hprint : l.print s v buffer = match l.render s v with
        | .ok (some cs) => (buffer ++ cs, .ok true)
        | .ok none => (buffer, .ok false)
        | .error e => (buffer, .error e) := by
      cases l with
      | offset o => exact absurd ⟨o, rfl⟩ hl
      | _ => rfl
    rw [hprint]
    rcases l.render s v with e | _ | cs
    · exact writes_error _ _
    · exact .unavailable
    · exact .text cs

namespace Node

theorem padBuffer_writes (width : Nat) (fill : Char) (buffer text : List Char) :
    Writes buffer (padBuffer width fill buffer.length (buffer ++ text))
      (padText width fill text) := by
  simp only [padBuffer, padText, List.drop_left, List.take_left]
  split
  · exact .error _ _
  · rw [List.append_assoc]
    exact .text _

section

variable {expand : Node → List Char → Printed}
  {expandText : Node → Except FormatError (Option (List Char))} {s : Settings} {v : Components}

mutual

/-- Induction on the tree: nodes of a group append their texts in turn, and the group takes back
those that stand before a node that the value lacks something for. -/
theorem printWith_writes (h : ∀ node buffer, Writes buffer (expand node buffer) (expandText node)) :
    ∀ (node : Node) (buffer : List Char),
      Writes buffer (printWith expand s v node buffer) (renderWith expandText s v node)
  | .leaf l, buffer => by
      simp only [printWith, renderWith]
      exact l.print_writes s v buffer
  | .mode change, buffer => by
      simp only [printWith, renderWith]
      exact writes_empty buffer
  | .instant, buffer => by
      simp only [printWith, renderWith]
      exact Instant.print_writes v buffer
  | .localized l, buffer => by
      simp only [printWith, renderWith]
      cases l.nodes s (s.printChronology v) with
      | error e => exact writes_error buffer e
      | ok nodes => exact h (group nodes false) buffer
  | .pad inner width fill, buffer => by
      have hinner := printWith_writes h inner buffer
      simp only [printWith, renderWith]
      generalize printWith expand s v inner buffer = p at hinner ⊢
      generalize renderWith expandText s v inner = r at hinner ⊢
      cases hinner with
      | text cs => exact padBuffer_writes width fill buffer cs
      | unavailable => exact .unavailable
      | error part e => exact .error part e
  | .group nodes optional, buffer => by
      have hnodes := printAllWith_appends h nodes buffer
      simp only [printWith, renderWith]
      generalize printAllWith expand s v nodes buffer = p at hnodes ⊢
      generalize renderAllWith expandText s v nodes = r at hnodes ⊢
      cases hnodes with
      | text cs => exact .text cs
      | unavailable part =>
          simp only [List.take_left]
          cases optional with
          | false => exact .unavailable
          | true => exact writes_empty buffer
      | error part e => exact .error part e

theorem printAllWith_appends
    (h : ∀ node buffer, Writes buffer (expand node buffer) (expandText node)) :
    ∀ (nodes : List Node) (buffer : List Char),
      Appends buffer (printAllWith expand s v nodes buffer) (renderAllWith expandText s v nodes)
  | [], buffer => by
      simp only [printAllWith, renderAllWith]
      exact appends_empty buffer
  | node :: nodes, buffer => by
      have hnode := printWith_writes h node buffer
      simp only [printAllWith, renderAllWith]
      generalize printWith expand s v node buffer = p at hnode ⊢
      generalize renderWith expandText s v node = r at hnode ⊢
      cases hnode with
      | text cs =>
          have hrest := printAllWith_appends h nodes (buffer ++ cs)
          dsimp only
          generalize printAllWith expand s v nodes (buffer ++ cs) = p at hrest ⊢
          generalize renderAllWith expandText s v nodes = r at hrest ⊢
          cases hrest with
          | text rest =>
              rw [List.append_assoc]
              exact .text (cs ++ rest)
          | unavailable part =>
              rw [List.append_assoc]
              exact .unavailable (cs ++ part)
          | error part e =>
              rw [List.append_assoc]
              exact .error (cs ++ part) e
      | unavailable =>
          have hnone : Appends buffer (buffer ++ [], .ok false) (.ok none) := .unavailable []
          rwa [List.append_nil] at hnone
      | error part e => exact .error part e

end

end

/-- The same at every depth of localized patterns. -/
theorem printTo_writes (s : Settings) (v : Components) (depth : Nat) (node : Node)
    (buffer : List Char) :
    Writes buffer (printTo s v depth node buffer) (renderTo s v depth node) := by
  induction depth generalizing node buffer with
  | zero => exact printWith_writes (fun _ _ => .unavailable) node buffer
  | succ depth ih => exact printWith_writes ih node buffer

theorem print_writes (s : Settings) (v : Components) (node : Node) (buffer : List Char) :
    Writes buffer (node.print s v buffer) (node.render s v) :=
  printTo_writes s v 1 node buffer

/-- A leaf appends its text to what was written before. -/
theorem print_leaf {l : Leaf} {s : Settings} {v : Components} {text : List Char}
    (h : l.render s v = .ok (some text)) (buffer : List Char) :
    (leaf l).print s v buffer = (buffer ++ text, .ok true) := by
  have hleaf := ((leaf l).print_writes s v buffer).eq
  have hrender : (leaf l).render s v = .ok (some text) := h
  rwa [hrender] at hleaf

/-- A node writes a text for a value of a field, whatever else there is to write. -/
def Prints (s : Settings) (node : Node) (f : Field) (x : Int) (text : List Char) : Prop :=
  ∀ v : Components, v.field f = some x → ∀ buffer,
    node.print s v buffer = (buffer ++ text, .ok true)

theorem prints_of_render {l : Leaf} {s : Settings} {f : Field} {x : Int} {text : List Char}
    (h : ∀ v : Components, v.field f = some x → l.render s v = .ok (some text)) :
    Prints s (leaf l) f x text :=
  fun v hv buffer => print_leaf (h v hv) buffer

/-- What a node writes for a value is the text that it has for it. -/
theorem Prints.render {s : Settings} {node : Node} {f : Field} {x : Int} {text : List Char}
    (h : Prints s node f x text) {v : Components} (hv : v.field f = some x) :
    node.render s v = .ok (some text) := by
  have hwrites := node.print_writes s v []
  rw [h v hv []] at hwrites
  exact hwrites.unique (.text text)

/-- The text of a node is found again from what the node writes. -/
theorem renderTo_succ (s : Settings) (v : Components) (depth : Nat) (node : Node) :
    renderTo s v (depth + 1) node = node.render s v := by
  have hdeep := printTo_writes s v (depth + 1) node []
  have hone := node.print_writes s v []
  rw [printTo_succ] at hdeep
  exact hdeep.unique hone

theorem render_section (s : Settings) (v : Components) (nodes : List Node) :
    (group nodes true).render s v =
      match (group nodes false).render s v with
      | .ok none => .ok (some [])
      | other => other := by
  unfold render renderTo
  simp only [renderWith]
  rcases renderAllWith (renderTo s v 0) s v nodes with e | _ | text
  · rfl
  · rfl
  · rfl

/-! ### Texts that are there -/

section

variable {expand : Node → Except FormatError (Option (List Char))} {st : Settings} {v : Components}
  {node : Node} {nodes : List Node} {text rest : List Char}

theorem renderAllWith_cons (h : renderWith expand st v node = .ok (some text))
    (hrest : renderAllWith expand st v nodes = .ok (some rest)) :
    renderAllWith expand st v (node :: nodes) = .ok (some (text ++ rest)) := by
  rw [renderAllWith, h]
  dsimp only
  rw [hrest]

theorem renderAllWith_singleton (h : renderWith expand st v node = .ok (some text)) :
    renderAllWith expand st v [node] = .ok (some text) := by
  have hnil : renderAllWith expand st v [] = .ok (some []) := by rw [renderAllWith]
  have hcons := renderAllWith_cons h hnil
  rwa [List.append_nil] at hcons

theorem renderAllWith_cons_error {e : FormatError} (h : renderWith expand st v node = .error e) :
    renderAllWith expand st v (node :: nodes) = .error e := by
  rw [renderAllWith, h]

theorem renderWith_group (h : renderAllWith expand st v nodes = .ok (some text))
    (optional : Bool) : renderWith expand st v (group nodes optional) = .ok (some text) := by
  rw [renderWith, h]

theorem renderWith_group_error {e : FormatError} (h : renderAllWith expand st v nodes = .error e)
    (optional : Bool) : renderWith expand st v (group nodes optional) = .error e := by
  rw [renderWith, h]

theorem renderWith_mode (change : ModeChange) :
    renderWith expand st v (mode change) = .ok (some []) := by
  rw [renderWith]

theorem renderAllWith_mode (change : ModeChange) (nodes : List Node) :
    renderAllWith expand st v (mode change :: nodes) = renderAllWith expand st v nodes := by
  rw [renderAllWith, renderWith_mode]
  dsimp only
  split
  · rename_i h
    rw [h, List.nil_append]
  · rfl

theorem renderWith_literal (text : List Char) :
    renderWith expand st v (literal text) = .ok (some text) := by
  rw [literal, renderWith, Leaf.render]

theorem renderWith_numeral {n : Numeral} {x : Int} (hf : v.field n.field = some x)
    (h : n.render st.symbols x = .ok text) :
    renderWith expand st v (numeral n) = .ok (some text) := by
  rw [numeral, renderWith, Leaf.render, hf, Leaf.renderField, h]

theorem renderWith_numeral_error {n : Numeral} {x : Int} (hf : v.field n.field = some x)
    {e : PrintError} (h : n.render st.symbols x = .error e) :
    renderWith expand st v (numeral n) = .error (.print e) := by
  rw [numeral, renderWith, Leaf.render, hf, Leaf.renderField, h]

theorem renderWith_offset {o : OffsetForm} {total : Int}
    (hf : v.field .offsetSeconds = some total) (h : o.render total = .ok text) :
    renderWith expand st v (leaf (.offset o)) = .ok (some text) := by
  rw [renderWith, Leaf.render, hf, Leaf.renderField, h]

end

end Node

end DateTimeText
