import DateTimeText.Formatter
import DateTimeText.Proofs.Node.LeafReading
import DateTimeText.Proofs.Node.Snapshots

/-!
# Reading with a formatter

A formatter reads a text if its nodes take all of it and each of the values that they read is in the
range of its field.
-/

namespace DateTimeText

namespace Components

theorem forM_eq_ok_iff {α ε : Type} {check : α → Except ε Unit} {xs : List α} :
    xs.forM check = .ok () ↔ ∀ x ∈ xs, check x = .ok () := by
  induction xs with
  | nil => exact ⟨fun _ x hx => absurd hx List.not_mem_nil, fun _ => rfl⟩
  | cons x xs ih =>
      rw [List.forall_mem_cons, ← ih]
      change (check x).bind (fun _ => xs.forM check) = .ok () ↔ _
      cases check x with
      | error e => simp [Except.bind]
      | ok u => simp [Except.bind]

theorem exists_of_forM_eq_error {α ε : Type} {check : α → Except ε Unit} {xs : List α} {e : ε}
    (h : xs.forM check = .error e) : ∃ x ∈ xs, check x = .error e := by
  induction xs with
  | nil => cases h
  | cons x xs ih =>
      change (check x).bind (fun _ => xs.forM check) = .error e at h
      cases hx : check x with
      | error e' =>
          rw [hx] at h
          cases h
          exact ⟨x, List.mem_cons_self, hx⟩
      | ok u =>
          rw [hx] at h
          obtain ⟨y, hy, hcheck⟩ := ih h
          exact ⟨y, List.mem_cons_of_mem x hy, hcheck⟩

/-- Components are in range if each of their fields is. -/
theorem checkRanges_eq_ok_iff {v : Components} {c : Chronology} :
    v.checkRanges c = .ok () ↔ ∀ f value, v.field f = some value → value ∈ c.range f := by
  have hcheck : ∀ f value, discard ((c.range f).check f value) = .ok () ↔ value ∈ c.range f := by
    intro f value
    unfold ValueRange.check
    by_cases h : value ∈ c.range f
    · rw [if_pos h]
      exact ⟨fun _ => h, fun _ => rfl⟩
    · rw [if_neg h]
      exact ⟨nofun, fun h' => absurd h' h⟩
  unfold checkRanges
  rw [forM_eq_ok_iff]
  constructor
  · intro h f value hf
    refine (hcheck f value).1 (h (f, value) (List.mem_filterMap.2 ⟨f, Field.mem_all f, ?_⟩))
    rw [hf, Option.map_some]
  · rintro h ⟨f, value⟩ hmem
    obtain ⟨g, -, hg⟩ := List.mem_filterMap.1 hmem
    obtain ⟨x, hx, hpair⟩ := Option.map_eq_some_iff.1 hg
    cases hpair
    exact (hcheck _ _).2 (h _ _ hx)

theorem checkRanges_empty (c : Chronology) : empty.checkRanges c = .ok () := by
  rw [checkRanges_eq_ok_iff]
  intro f value hvalue
  cases hvalue

theorem checkRanges_set {v : Components} {c : Chronology} (hv : v.checkRanges c = .ok ())
    {f : Field} {x : Int} (hx : x ∈ c.range f) : (v.set f x).checkRanges c = .ok () := by
  rw [checkRanges_eq_ok_iff] at hv ⊢
  intro g value hvalue
  rw [field_set] at hvalue
  split at hvalue
  · rename_i hg
    cases hvalue
    rwa [hg]
  · exact hv g value hvalue

end Components

namespace Formatter

theorem parseStart_eq (f : Formatter) (text : List Char) :
    f.parseStart text =
      match Node.parseAllWith (Node.parseTo f.settings 0) f.settings f.nodes .initial text with
      | (after, .ok rest) => .ok (after.current, rest)
      | (_, .error rest) => .error rest :=
  rfl

/-! ### Formatters of one node -/

section

variable {node : Node} {s : Settings} {text rest : List Char} {after : Context}

theorem parse_root_node (node : Node) (s : Settings) (c : Context) (text : List Char) :
    (Formatter.mk [node] s).root.parse s c text = node.parse s c text :=
  Node.parseAllWith_singleton node c text

theorem parseStart_node_of_ok (h : node.parse s .initial text = (after, .ok rest)) :
    (Formatter.mk [node] s).parseStart text = .ok (after.current, rest) := by
  rw [parseStart, parse_root_node, h]

theorem parseStart_node_of_error (h : node.parse s .initial text = (after, .error rest)) :
    (Formatter.mk [node] s).parseStart text = .error rest := by
  rw [parseStart, parse_root_node, h]

end

/-- A formatter reads what reading with copies does. -/
theorem parseStart_eq_read (f : Formatter) (text : List Char) :
    f.parseStart text = (f.root.read f.settings .initial .empty text).2 := by
  have hread := (Node.parse_eq_read_and_saved f.settings f.root .initial text).1
  change _ = f.root.read f.settings .initial .empty text at hread
  rw [← hread, parseStart]
  rcases f.root.parse f.settings .initial text with ⟨after, stop | rest⟩ <;> rfl

theorem parse_of_parseStart {f : Formatter} {text : List Char} {v : Components}
    (h : f.parseStart text = .ok (v, []))
    (hranges : v.checkRanges (f.settings.parseChronology v) = .ok ()) : f.parse text = .ok v := by
  rw [parse, h]
  dsimp only
  rw [hranges]

theorem parseAt_of_parseAllWith {f : Formatter} {text : List Char} {after : Context}
    (h : Node.parseAllWith (Node.parseTo f.settings 0) f.settings f.nodes .initial text =
      (after, .ok [])) (errorIndex : Option Nat) :
    f.parseAt text ⟨0, errorIndex⟩ = (some after.current, ⟨byteLength text, errorIndex⟩) := by
  rw [parseAt, dropBytes?_zero]
  dsimp only
  rw [parseStart_eq, h]
  rfl

theorem parse_eq_ok_iff {f : Formatter} {text : List Char} {v : Components} :
    f.parse text = .ok v ↔
      (∃ after, Node.parseAllWith (Node.parseTo f.settings 0) f.settings f.nodes .initial text =
        (after, .ok []) ∧ after.current = v) ∧
      v.checkRanges (f.settings.parseChronology v) = .ok () := by
  rw [parse, parseStart_eq]
  rcases Node.parseAllWith (Node.parseTo f.settings 0) f.settings f.nodes .initial text with
    ⟨after, stop | _ | ⟨a, rest⟩⟩
  · simp
  · dsimp only
    cases hranges : after.current.checkRanges (f.settings.parseChronology after.current) with
    | error e =>
        refine iff_of_false nofun ?_
        rintro ⟨⟨other, hread, rfl⟩, hv⟩
        cases hread
        rw [hranges] at hv
        cases hv
    | ok u =>
        constructor
        · rintro ⟨⟩
          exact ⟨⟨after, rfl, rfl⟩, hranges⟩
        · rintro ⟨⟨other, hread, rfl⟩, -⟩
          cases hread
          rfl
  · simp

end Formatter

end DateTimeText
