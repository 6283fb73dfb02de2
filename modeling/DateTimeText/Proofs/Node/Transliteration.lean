import DateTimeText.Proofs.Node.Cursor
import DateTimeText.Proofs.Node.Rendering
import DateTimeText.Proofs.Text.Transliteration
import DateTimeText.Node.Read

/-!
# Nodes in other digits

Numbers, fractions and literals without digits are written with another zero digit as the same text
in its digits, and read from there as the same values. So are sections and groups of them, since a
part stops at the same character in both texts.
-/

namespace DateTimeText

/-! ### Results in other digits -/

/-- A text that is written, in other digits. -/
def rendered (zero : Char) (r : Except FormatError (Option (List Char))) :
    Except FormatError (Option (List Char)) :=
  r.map (Option.map (List.map (transliterate zero)))

namespace Reading

/-- What was read, with what is left of a text in other digits. -/
def transliterated (zero : Char) :
    Except (List Char) Reading → Except (List Char) Reading
  | .ok r => .ok { r with
      conflictAt := r.conflictAt.map (transliterate zero)
      rest := r.rest.map (transliterate zero) }
  | .error stop => .error (stop.map (transliterate zero))

end Reading

variable {s : Symbols} {zero : Char}

namespace Numeral

theorem render_withZero (h : s.Admits zero) (n : Numeral) (value : Int) :
    n.render (s.withZero zero) value =
      (n.render s value).map (List.map (transliterate zero)) := by
  have hpositive : transliterate zero s.positive = s.positive :=
    transliterate_of_not_ascii h.positive.not_ascii
  have hnegative : transliterate zero s.negative = s.negative :=
    transliterate_of_not_ascii h.negative.not_ascii
  have hbody : List.replicate (n.minWidth - (decimal (n.shown value).natAbs).length)
      (s.withZero zero).zero ++ (s.withZero zero).localize (decimal (n.shown value).natAbs) =
        (List.replicate (n.minWidth - (decimal (n.shown value).natAbs).length) s.zero ++
          s.localize (decimal (n.shown value).natAbs)).map (transliterate zero) := by
    rw [List.map_append, List.map_replicate, Symbols.transliterate_zero h,
      Symbols.localize_withZero h]
    rfl
  unfold render
  simp only [hbody]
  split
  · rfl
  split
  · split
    · rfl
    · rfl
    · rw [Except.map, List.map_cons, hnegative]
      rfl
  · split
    · rw [Except.map, List.map_cons, hpositive]
      rfl
    · split
      · rw [Except.map, List.map_cons, hpositive]
        rfl
      · rfl
    · rfl

theorem readDigits_transliterate (h : s.Admits zero) (n : Numeral) (strict : Bool)
    (sign : Option Sign) (start : List Char) {body : List Char} (hbody : Spares zero body) :
    n.readDigits (s.withZero zero) strict sign (start.map (transliterate zero))
        (body.map (transliterate zero)) =
      Reading.transliterated zero (n.readDigits s strict sign start body) := by
  unfold readDigits
  simp only [Symbols.digitRun_transliterate h hbody]
  generalize (if (strict || n.keepsWidth) = true then n.minWidth else 1) = least
  generalize s.digitRun (n.maxWidth + n.reserved) body = run
  generalize max least (run.length - n.reserved) = count
  generalize (if sign = some .negative then -(ofDigits (run.take count) : Int)
    else ofDigits (run.take count)) = value
  -- The numbers are the same, so both take the same branch.
  split_ifs
  · rfl
  · rfl
  · rfl
  · rfl
  · rw [← List.map_drop]
    rfl
  · rw [← List.map_drop]
    rfl

theorem read_transliterate (h : s.Admits zero) (n : Numeral) (strict : Bool) {text : List Char}
    (htext : Spares zero text) :
    n.read (s.withZero zero) strict (text.map (transliterate zero)) =
      Reading.transliterated zero (n.read s strict text) := by
  cases text with
  | nil => rfl
  | cons c rest =>
      have hrest : Spares zero rest := htext.of_suffix (List.suffix_cons c rest)
      have hwhole := n.readDigits_transliterate h strict none (c :: rest) htext
      rw [List.map_cons] at hwhole ⊢
      unfold read
      dsimp only [Symbols.withZero]
      simp only [Symbols.transliterate_eq_iff h h.positive,
        Symbols.transliterate_eq_iff h h.negative]
      split
      · split
        · exact n.readDigits_transliterate h strict (some .positive) (c :: rest) hrest
        · rfl
      split
      · split
        · exact n.readDigits_transliterate h strict (some .negative) (c :: rest) hrest
        · rfl
      split
      · rfl
      · exact hwhole

end Numeral

namespace Fraction

theorem render_withZero (h : s.Admits zero) (n : Fraction) (value : Int) :
    n.render (s.withZero zero) value =
      (n.render s value).map (List.map (transliterate zero)) := by
  have hdecimal : transliterate zero s.decimal = s.decimal :=
    transliterate_of_not_ascii h.decimal.not_ascii
  have hpoint : (if n.decimalPoint = true then [(s.withZero zero).decimal] else []) =
      (if n.decimalPoint = true then [s.decimal] else []).map (transliterate zero) := by
    split
    · rw [List.map_cons, hdecimal]
      rfl
    · rfl
  unfold render
  simp only [hpoint, Symbols.localize_withZero h]
  split
  · rfl
  split
  · split
    · rfl
    · rw [Except.map, List.map_append, List.map_replicate, Symbols.transliterate_zero h]
      rfl
  split
  · rfl
  · rw [Except.map, List.map_append]

theorem readDigits_transliterate (h : s.Admits zero) (n : Fraction) (least most : Nat)
    {body : List Char} (hbody : Spares zero body) :
    n.readDigits (s.withZero zero) least most (body.map (transliterate zero)) =
      Reading.transliterated zero (n.readDigits s least most body) := by
  unfold readDigits
  simp only [Symbols.digitRun_transliterate h hbody]
  split
  · rfl
  · rw [← List.map_drop]
    rfl

theorem read_transliterate (h : s.Admits zero) (n : Fraction) (strict : Bool) {text : List Char}
    (htext : Spares zero text) :
    n.read (s.withZero zero) strict (text.map (transliterate zero)) =
      Reading.transliterated zero (n.read s strict text) := by
  unfold read
  generalize (if strict = true then n.minWidth else 0) = least
  generalize (if strict = true then n.maxWidth else 9) = most
  cases text with
  | nil =>
      simp only [List.map_nil]
      split_ifs
      · rfl
      · rfl
  | cons c rest =>
      have hrest : Spares zero rest := htext.of_suffix (List.suffix_cons c rest)
      have hwhole := n.readDigits_transliterate h least most htext
      rw [List.map_cons] at hwhole ⊢
      dsimp only [Symbols.withZero] at hwhole ⊢
      simp only [Symbols.transliterate_eq_iff h h.decimal]
      split_ifs
      · exact n.readDigits_transliterate h least most hrest
      · rfl
      · rfl
      · exact hwhole

end Fraction

/-- A literal without digits stands in both texts. -/
theorem Mode.strip?_transliterate (h : s.Admits zero) {chars : List Char}
    (hchars : ∀ c ∈ chars, NoDigit zero c) (text : List Char) :
    Mode.initial.strip? chars (text.map (transliterate zero)) =
      (Mode.initial.strip? chars text).map (List.map (transliterate zero)) := by
  induction chars generalizing text with
  | nil => rfl
  | cons e chars ih =>
      rw [List.forall_mem_cons] at hchars
      cases text with
      | nil => rfl
      | cons c text =>
          have hsame : Mode.initial.sameChar e (transliterate zero c) =
              Mode.initial.sameChar e c := by
            have heq : e = transliterate zero c ↔ e = c := by
              rw [eq_comm, Symbols.transliterate_eq_iff h hchars.1, eq_comm]
            exact decide_eq_decide.2 heq
          rw [List.map_cons, strip?, strip?, hsame, ih hchars.2]
          split
          · rfl
          · rfl

/-- Numbers, fractions and literals without digits, in sections and groups. -/
inductive Node.IsNumeric (zero : Char) : Node → Prop
  | numeral (n : Numeral) : IsNumeric zero (leaf (.numeral n))
  | fraction (n : Fraction) : IsNumeric zero (leaf (.fraction n))
  | literal {chars : List Char} (h : ∀ c ∈ chars, NoDigit zero c) :
      IsNumeric zero (leaf (.literal chars))
  | group {nodes : List Node} (optional : Bool) (h : ∀ node ∈ nodes, IsNumeric zero node) :
      IsNumeric zero (group nodes optional)

namespace Leaf

variable {st st' : Settings} {l : Leaf}

theorem renderField_map {ε : Type} {lift : ε → FormatError}
    {render render' : Int → Except ε (List Char)}
    (h : ∀ x, render' x = (render x).map (List.map (transliterate zero))) (value : Option Int) :
    renderField lift render' value = rendered zero (renderField lift render value) := by
  cases value with
  | none => rfl
  | some x =>
      rw [renderField, renderField, h]
      cases render x <;> rfl

theorem render_transliterate (h : st.symbols.Admits zero)
    (hst : st'.symbols = st.symbols.withZero zero) (v : Components)
    (hl : (Node.leaf l).IsNumeric zero) :
    l.render st' v = rendered zero (l.render st v) := by
  cases hl with
  | numeral n =>
      rw [render, render, hst]
      exact renderField_map (n.render_withZero h) _
  | fraction n =>
      rw [render, render, hst]
      exact renderField_map (n.render_withZero h) _
  | literal hchars =>
      rw [render, render, rendered, Except.map, Option.map_some,
        map_transliterate_of_noDigit hchars]

theorem read_transliterate (h : st.symbols.Admits zero)
    (hst : st'.symbols = st.symbols.withZero zero) {text : List Char} (htext : Spares zero text)
    (hl : (Node.leaf l).IsNumeric zero) :
    l.read st' .initial (text.map (transliterate zero)) =
      Reading.transliterated zero (l.read st .initial text) := by
  cases hl with
  | numeral n =>
      rw [read, read, hst]
      exact n.read_transliterate h _ htext
  | fraction n =>
      rw [read, read, hst]
      exact n.read_transliterate h _ htext
  | literal hchars =>
      rw [read, read, readLiteral, readLiteral, Mode.strip?_transliterate h hchars]
      cases Mode.initial.strip? _ text <;> rfl

end Leaf

/-- A result of reading a text beside that of reading it in other digits: the same components or
none, and what is left of the text in these digits. -/
inductive Mirrors (zero : Char) : ReadResult → ReadResult → Prop
  | ok (v : Components) {rest : List Char} (h : Spares zero rest) :
      Mirrors zero (.initial, .ok (v, rest)) (.initial, .ok (v, rest.map (transliterate zero)))
  | error (stop : List Char) :
      Mirrors zero (.initial, .error stop) (.initial, .error (stop.map (transliterate zero)))

namespace Node

variable {st st' : Settings}

section

variable {expand expand' : Node → Except FormatError (Option (List Char))} {v : Components}

/-- The texts of nodes are joined one by one. -/
theorem renderAllWith_transliterate {nodes : List Node}
    (h : ∀ node ∈ nodes,
      renderWith expand' st' v node = rendered zero (renderWith expand st v node)) :
    renderAllWith expand' st' v nodes = rendered zero (renderAllWith expand st v nodes) := by
  induction nodes with
  | nil => rfl
  | cons node nodes ih =>
      obtain ⟨hnode, hnodes⟩ := List.forall_mem_cons.1 h
      rw [renderAllWith, renderAllWith, hnode, ih hnodes]
      rcases renderWith expand st v node with e | _ | text
      · rfl
      · rfl
      rcases renderAllWith expand st v nodes with e | _ | rest
      · rfl
      · rfl
      · simp [rendered, Except.map]

theorem renderWith_transliterate (h : st.symbols.Admits zero)
    (hst : st'.symbols = st.symbols.withZero zero) {node : Node} (hnode : node.IsNumeric zero) :
    renderWith expand' st' v node = rendered zero (renderWith expand st v node) := by
  induction hnode with
  | numeral n =>
      rw [renderWith, renderWith]
      exact Leaf.render_transliterate h hst v (.numeral n)
  | fraction n =>
      rw [renderWith, renderWith]
      exact Leaf.render_transliterate h hst v (.fraction n)
  | literal hchars =>
      rw [renderWith, renderWith]
      exact Leaf.render_transliterate h hst v (.literal hchars)
  | group optional _ ih =>
      rw [renderWith, renderWith, renderAllWith_transliterate ih]
      rcases renderAllWith expand st v _ with e | _ | text
      · rfl
      · cases optional <;> rfl
      · rfl

end

section

variable {expand expand' : Node → Mode → Components → List Char → ReadResult}

theorem readAllWith_transliterate {nodes : List Node}
    (h : ∀ node ∈ nodes, ∀ (v : Components) {text : List Char}, Spares zero text →
      Mirrors zero (readWith expand st node .initial v text)
        (readWith expand' st' node .initial v (text.map (transliterate zero))))
    (v : Components) {text : List Char} (htext : Spares zero text) :
    Mirrors zero (readAllWith expand st nodes .initial v text)
      (readAllWith expand' st' nodes .initial v (text.map (transliterate zero))) := by
  induction nodes generalizing v text with
  | nil =>
      rw [readAllWith, readAllWith]
      exact .ok v htext
  | cons node nodes ih =>
      obtain ⟨hnode, hnodes⟩ := List.forall_mem_cons.1 h
      have hread := hnode v htext
      rw [readAllWith, readAllWith]
      generalize readWith expand st node .initial v text = r at hread ⊢
      generalize readWith expand' st' node .initial v _ = r' at hread ⊢
      cases hread with
      | ok w hrest => exact ih hnodes w hrest
      | error stop => exact .error stop

theorem readWith_leaf_transliterate (h : st.symbols.Admits zero)
    (hst : st'.symbols = st.symbols.withZero zero) {l : Leaf} (hl : (leaf l).IsNumeric zero)
    (v : Components) {text : List Char} (htext : Spares zero text) :
    Mirrors zero (readWith expand st (leaf l) .initial v text)
      (readWith expand' st' (leaf l) .initial v (text.map (transliterate zero))) := by
  have hreads := Leaf.read_readsIn st .initial text l
  rw [readWith, readWith, Leaf.read_transliterate h hst htext hl]
  generalize l.read st .initial text = result at hreads ⊢
  cases result with
  | error stop => exact .error stop
  | ok r =>
      have hadd : ∀ conflictAt rest,
          v.add? { r with conflictAt := conflictAt, rest := rest } = v.add? r := fun _ _ => rfl
      simp only [Reading.transliterated, Components.addResult, hadd]
      cases v.add? r with
      | none => exact .error r.conflictAt
      | some w => exact .ok w (htext.of_suffix (hreads.1.trans hreads.2))

/-- Induction on the tree: a part starts at the same character of both texts, in the mode in which
reading starts. -/
theorem readWith_transliterate (h : st.symbols.Admits zero)
    (hst : st'.symbols = st.symbols.withZero zero) {node : Node} (hnode : node.IsNumeric zero)
    (v : Components) {text : List Char} (htext : Spares zero text) :
    Mirrors zero (readWith expand st node .initial v text)
      (readWith expand' st' node .initial v (text.map (transliterate zero))) := by
  induction hnode generalizing v text with
  | numeral n => exact readWith_leaf_transliterate h hst (.numeral n) v htext
  | fraction n => exact readWith_leaf_transliterate h hst (.fraction n) v htext
  | literal hchars => exact readWith_leaf_transliterate h hst (.literal hchars) v htext
  | @group nodes optional _ ih =>
      have hnodes : Mirrors zero (readAllWith expand st nodes .initial v text)
          (readAllWith expand' st' nodes .initial v (text.map (transliterate zero))) :=
        readAllWith_transliterate (fun node hmem v _ htext => ih node hmem v htext) v htext
      cases optional with
      | false =>
          rw [readWith, readWith]
          exact hnodes
      | true =>
          rw [readWith, readWith]
          generalize readAllWith expand st _ .initial v text = r at hnodes ⊢
          generalize readAllWith expand' st' _ .initial v _ = r' at hnodes ⊢
          cases hnodes with
          | ok w hrest => exact .ok w hrest
          | error stop => exact .ok v htext

end

end Node

end DateTimeText
