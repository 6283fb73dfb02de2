import DateTimeText.Node.Parse
import DateTimeText.Proofs.Node.Numeral
import DateTimeText.Proofs.Node.SecondFraction

/-!
# Nodes that read what was written

A literal is read in front of any text, and a number and a fraction of a second in front of a text
that does not go on with more digits than they leave. Nodes are read one after the other, and what a
section has read stays.
-/

namespace DateTimeText

theorem Mode.strip?_append (mode : Mode) (text rest : List Char) :
    mode.strip? text (text ++ rest) = some rest := by
  induction text with
  | nil => cases rest <;> rfl
  | cons c text ih => simpa [strip?] using ih

/-- A text of characters that are the same as no others is found where it stands. -/
theorem Mode.eq_append_of_strip? {mode : Mode} {expected text rest : List Char}
    (hsame : ∀ a ∈ expected, ∀ c, mode.sameChar a c = true → c = a)
    (h : mode.strip? expected text = some rest) : text = expected ++ rest := by
  induction expected generalizing text with
  | nil =>
      rw [strip?] at h
      exact Option.some.inj h
  | cons e expected ih =>
      rw [List.forall_mem_cons] at hsame
      cases text with
      | nil => cases h
      | cons c text =>
          rw [strip?] at h
          split at h
          · rename_i hc
            rw [hsame.1 c hc, ih hsame.2 h, List.cons_append]
          · cases h

namespace Fraction

/-- The digits of a fraction are read in front of a text that does not go on with a digit. -/
theorem isoNano_read_append {width n : Nat} (hwidth : width ≤ 9) (hpos : 0 < width)
    (hn : n < tenPow width) {rest : List Char} (hrest : Symbols.standard.EndsDigits rest) :
    ∃ body, isoNano.read .standard true ('.' :: zeroPadded width n ++ rest) =
      .ok (.value .nanoOfSecond ((n * 1000000000 / tenPow width : Nat) : Int) body rest) := by
  have hlen := length_paddedDigits_of_lt hpos hn
  have hne : paddedDigits width n ≠ [] := List.ne_nil_of_length_pos (hpos.trans_eq hlen.symm)
  have hread := read_append Symbols.standard_legible wellSized_isoNano
    (fun _ => lt_ten_of_mem_paddedDigits) hne (Nat.zero_le _) (hlen.trans_le hwidth) true hrest
  rw [isoNano, valueOf_nano, hlen, ofDigits_paddedDigits,
    Symbols.map_digitChar_paddedDigits] at hread
  exact ⟨_, hread⟩

/-- A fraction that may have no digits is not there. -/
theorem isoNano_read_of_ne {rest : List Char} (hrest : ∀ c ∈ rest.head?, c ≠ '.') :
    isoNano.read .standard true rest = .ok (.skip rest) := by
  cases rest with
  | nil => rfl
  | cons c rest =>
      have hc : c ≠ '.' := hrest c rfl
      simp [read, isoNano, Symbols.standard, hc]

end Fraction

namespace Context

/-- A value is stored, also where it contradicts an earlier one and fails for it. -/
theorem storeResult_value_eq (c : Context) (f : Field) (value : Int) (body rest : List Char) :
    c.storeResult (.ok (.value f value body rest)) =
      ({ c with current := c.current.set f value },
        if (c.current.field f).all (· == value) then .ok rest else .error body) := by
  rw [storeResult, store, Reading.value, storeFields]
  by_cases hall : (c.current.field f).all (· == value) = true
  · simp only [hall, if_true]
    rfl
  · simp only [hall, Bool.false_eq_true, if_false]

theorem storeResult_value {c : Context} {f : Field} {value : Int}
    (hc : ∀ old ∈ c.current.field f, old = value) (body rest : List Char) :
    c.storeResult (.ok (.value f value body rest)) =
      ({ c with current := c.current.set f value }, .ok rest) := by
  have hall : (c.current.field f).all (· == value) = true := by
    rw [Option.all_eq_true]
    exact fun old hold => by simpa using hc old hold
  rw [storeResult_value_eq, if_pos hall]

end Context

namespace Node

variable {expand : Node → Context → List Char → Parsed} {st : Settings}

theorem parse_leaf (l : Leaf) (c : Context) (text : List Char) :
    (leaf l).parse st c text = c.storeResult (l.read st c.mode text) := by
  rw [parse, parseTo, parseWith]

/-- In strict mode a node takes a text for a value of a field: in any context that has no other
value of it, and in front of any text. -/
def Stores (s : Settings) (node : Node) (taken : List Char) (f : Field) (x : Int) : Prop :=
  ∀ c : Context, c.mode.strict = true → (∀ old ∈ c.current.field f, old = x) → ∀ rest,
    node.parse s c (taken ++ rest) = ({ c with current := c.current.set f x }, .ok rest)

theorem parseWith_literal (c : Context) (text rest : List Char) :
    parseWith expand st (leaf (.literal text)) c (text ++ rest) = (c, .ok rest) := by
  have hread : Leaf.read st c.mode (text ++ rest) (.literal text) = .ok (.skip rest) := by
    rw [Leaf.read, Leaf.readLiteral, Mode.strip?_append]
  rw [parseWith, hread]
  rfl

/-- A number that is read is stored, if the field has no other value. -/
theorem parseWith_numeral_of_read {n : Numeral} {value : Int} {text body rest : List Char}
    {c : Context} (hstrict : c.mode.strict = true)
    (hread : n.read st.symbols true text = .ok (.value n.field value body rest))
    (hc : ∀ old ∈ c.current.field n.field, old = value) :
    parseWith expand st (leaf (.numeral n)) c text =
      ({ c with current := c.current.set n.field value }, .ok rest) := by
  rw [parseWith, Leaf.read, hstrict, hread]
  exact Context.storeResult_value hc body rest

theorem parseWith_numeral (hs : st.symbols.Legible) {n : Numeral} (hn : n.WellSized) {value : Int}
    (hv : n.Recovers value) {cs rest : List Char} (hcs : n.render st.symbols value = .ok cs)
    (hrest : n.Leaves st.symbols rest) {c : Context} (hstrict : c.mode.strict = true)
    (hc : ∀ old ∈ c.current.field n.field, old = value) :
    parseWith expand st (leaf (.numeral n)) c (cs ++ rest) =
      ({ c with current := c.current.set n.field value }, .ok rest) := by
  obtain ⟨body, hread⟩ := Numeral.read_render_append hs hn hv hcs hrest
  exact parseWith_numeral_of_read hstrict hread hc

theorem parseWith_mode (change : ModeChange) (c : Context) (text : List Char) :
    parseWith expand st (mode change) c text =
      ({ c with mode := change.apply c.mode }, .ok text) := by
  rw [parseWith]

variable {node : Node} {nodes : List Node} {c after : Context} {text rest : List Char}

theorem parseAllWith_singleton (node : Node) (c : Context) (text : List Char) :
    parseAllWith expand st [node] c text = parseWith expand st node c text := by
  rw [parseAllWith]
  split
  · rename_i h
    rw [h, parseAllWith]
  · rfl

theorem parseAllWith_cons_ok (h : parseWith expand st node c text = (after, .ok rest)) :
    parseAllWith expand st (node :: nodes) c text = parseAllWith expand st nodes after rest := by
  rw [parseAllWith, h]

theorem parseAllWith_cons_error (h : parseWith expand st node c text = (after, .error rest)) :
    parseAllWith expand st (node :: nodes) c text = (after, .error rest) := by
  rw [parseAllWith, h]

/-- What a section has read stays, and the sections around it are as before. -/
theorem parseWith_section_ok {v : Components}
    (h : parseAllWith expand st nodes c.startOptional text =
      ({ c.startOptional with current := v }, .ok rest)) :
    parseWith expand st (group nodes true) c text = ({ c with current := v }, .ok rest) := by
  rw [parseWith, h]
  rfl

end Node

end DateTimeText
