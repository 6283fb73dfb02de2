import DateTimeText.Proofs.Node.Snapshots

/-!
# The values that are read

A node that is read adds the values of its parts to the fields and never changes one that is there:
afterwards a field has a value if it had this value before or a part that counts has read it. Two
parts that count have read the same value for the same field. A part does not count if it is in a
section that is not read, or if it is inside an instant.
-/

namespace DateTimeText

/-- The values of what was read. -/
def Reading.values : Except (List Char) Reading → List (Field × Int)
  | .ok reading => reading.fields
  | .error _ => []

namespace Components

/-- A field of `w` has a value if and only if it has it in `v` or among `values`. -/
def Extends (v : Components) (values : List (Field × Int)) (w : Components) : Prop :=
  ∀ f x, w.field f = some x ↔ v.field f = some x ∨ (f, x) ∈ values

theorem extends_nil (v : Components) : v.Extends [] v := by
  simp [Extends]

theorem Extends.trans {u v w : Components} {xs ys : List (Field × Int)} (h : u.Extends xs v)
    (hw : v.Extends ys w) : u.Extends (xs ++ ys) w := by
  intro f x
  rw [hw f x, h f x, List.mem_append, or_assoc]

theorem extends_set {v : Components} {f : Field} (h : v.field f = none) (x : Int) :
    v.Extends [(f, x)] (v.set f x) := by
  intro g y
  by_cases hg : g = f
  · subst hg
    simp [h, eq_comm]
  · simp [hg]

theorem extends_self {v : Components} {f : Field} {x : Int} (h : v.field f = some x) :
    v.Extends [(f, x)] v := by
  intro g y
  constructor
  · exact .inl
  · rintro (hg | hg)
    · exact hg
    · cases List.mem_singleton.1 hg
      exact h

theorem extends_addFields? {v w : Components} {fields : List (Field × Int)}
    (h : v.addFields? fields = some w) : v.Extends fields w := by
  induction fields generalizing v with
  | nil =>
      cases h
      exact extends_nil _
  | cons p fields ih =>
      obtain ⟨f, x⟩ := p
      cases hf : v.field f with
      | none =>
          have hrest : (v.set f x).addFields? fields = some w := by
            simpa [addFields?, hf] using h
          exact (extends_set hf x).trans (ih hrest)
      | some old =>
          obtain ⟨rfl, hrest⟩ : old = x ∧ v.addFields? fields = some w := by
            simpa [addFields?, hf] using h
          exact (extends_self hf).trans (ih hrest)

theorem addFields?_keeps {v w : Components} {fields : List (Field × Int)}
    (h : v.addFields? fields = some w) : w.zone = v.zone ∧ w.chronology = v.chronology := by
  induction fields generalizing v with
  | nil =>
      cases h
      exact ⟨rfl, rfl⟩
  | cons p fields ih =>
      rw [addFields?] at h
      split at h
      · obtain ⟨hzone, hchronology⟩ := ih h
        exact ⟨hzone.trans (zone_set ..), hchronology.trans (chronology_set ..)⟩
      · split at h
        · exact ih h
        · cases h

/-- What is added are the values, the zone and the chronology of a reading. -/
theorem addResult_eq_ok {v w : Components} {r : Except (List Char) Reading} {rest : List Char}
    (h : v.addResult r = .ok (w, rest)) :
    ∃ reading, r = .ok reading ∧ reading.rest = rest ∧ v.Extends reading.fields w ∧
      w.zone = reading.zone.or v.zone ∧ w.chronology = reading.chronology.or v.chronology := by
  cases r with
  | error e => simp [addResult] at h
  | ok reading =>
      cases hadd : v.addFields? reading.fields with
      | none => simp [addResult, add?, hadd] at h
      | some u =>
          simp only [addResult, add?, hadd, Option.map_some, Except.ok.injEq, Prod.mk.injEq] at h
          obtain ⟨rfl, rfl⟩ := h
          obtain ⟨hzone, hchronology⟩ := addFields?_keeps hadd
          exact ⟨reading, rfl, rfl, fun f x => extends_addFields? hadd f x,
            congrArg (reading.zone.or ·) hzone, congrArg (reading.chronology.or ·) hchronology⟩

theorem extends_addResult {v w : Components} {r : Except (List Char) Reading} {rest : List Char}
    (h : v.addResult r = .ok (w, rest)) : v.Extends (Reading.values r) w := by
  obtain ⟨reading, rfl, -, hextends, -⟩ := addResult_eq_ok h
  exact hextends

end Components

namespace Node

/-- What a node reads from components and a text, in a mode. -/
abbrev Reader : Type := Node → Mode → Components → List Char → ReadResult

/-- The values that count in reading a node. -/
abbrev Values : Type := Node → Mode → Components → List Char → List (Field × Int)

section

variable {expand : Reader} {st : Settings} {m after : Mode} {v w : Components} {nodes : List Node}
  {text rest : List Char}

theorem readAllWith_cons_eq_ok {node : Node}
    (h : readAllWith expand st (node :: nodes) m v text = (after, .ok (w, rest))) :
    ∃ mode u middle, readWith expand st node m v text = (mode, .ok (u, middle)) ∧
      readAllWith expand st nodes mode u middle = (after, .ok (w, rest)) := by
  rw [readAllWith] at h
  rcases hnode : readWith expand st node m v text with ⟨mode, stop | ⟨u, middle⟩⟩
  · rw [hnode] at h
    cases h
  · rw [hnode] at h
    exact ⟨mode, u, middle, rfl, h⟩

theorem readAllWith_leaf_eq_ok {l : Leaf}
    (h : readAllWith expand st (leaf l :: nodes) m v text = (after, .ok (w, rest))) :
    ∃ r u middle, l.read st m text = .ok r ∧ v.addResult (.ok r) = .ok (u, middle) ∧
      readAllWith expand st nodes m u middle = (after, .ok (w, rest)) := by
  obtain ⟨mode, u, middle, hnode, hnodes⟩ := readAllWith_cons_eq_ok h
  rw [readWith] at hnode
  obtain ⟨rfl, hadd⟩ := Prod.mk.inj hnode
  obtain ⟨r, hread, -⟩ := Components.addResult_eq_ok hadd
  exact ⟨r, u, middle, hread, hread ▸ hadd, hnodes⟩

theorem readAllWith_leaf_cons {l : Leaf} {u : Components} {middle : List Char} {r : Reading}
    (hread : l.read st m text = .ok r) (hadd : v.addResult (.ok r) = .ok (u, middle)) :
    readAllWith expand st (leaf l :: nodes) m v text = readAllWith expand st nodes m u middle := by
  rw [readAllWith, readWith, hread, hadd]

end

mutual

/-- The values that count in reading a node: those of its leaves and instants, but for the ones of
sections that are not read. -/
def valuesWith (expandValues : Values) (expand : Reader) (s : Settings) : Values
  | leaf l, m, _, text => Reading.values (l.read s m text)
  | mode _, _, _, _ => []
  | instant, _, _, text =>
    match expand Iso.instantParts .initial .empty text with
    | (_, .ok (own, rest)) => Reading.values (instantReading own text rest)
    | (_, .error _) => []
  | localized l, m, v, text =>
    match l.nodes s (s.parseChronology v) with
    | .error _ => []
    | .ok nodes => expandValues (group nodes false) m v text
  | pad inner width fill, m, v, text =>
    valuesWith expandValues expand s inner m v (m.dropFill fill (text.take width))
  | group nodes false, m, v, text => valuesAllWith expandValues expand s nodes m v text
  | group nodes true, m, v, text =>
    match readAllWith expand s nodes m v text with
    | (_, .error _) => []
    | (_, .ok _) => valuesAllWith expandValues expand s nodes m v text

def valuesAllWith (expandValues : Values) (expand : Reader) (s : Settings) :
    List Node → Mode → Components → List Char → List (Field × Int)
  | [], _, _, _ => []
  | node :: nodes, m, v, text =>
    match readWith expand s node m v text with
    | (after, .ok (w, rest)) =>
      valuesWith expandValues expand s node m v text ++
        valuesAllWith expandValues expand s nodes after w rest
    | (_, .error _) => []

end

/-- The values that count with instants and localized patterns inside each other up to a depth. -/
def valuesTo (s : Settings) : (depth : Nat) → Values
  | 0 => valuesWith (fun _ _ _ _ => []) (fun _ m _ text => (m, .error text)) s
  | depth + 1 => valuesWith (valuesTo s depth) (readTo s depth) s

def values (s : Settings) (node : Node) (m : Mode) (v : Components) (text : List Char) :
    List (Field × Int) :=
  valuesTo s 1 node m v text

section

variable {expandValues : Values} {expand : Reader} {s : Settings}

mutual

/-- Induction on the tree. A section that is not read adds nothing, so neither does its part of the
values. -/
theorem extends_readWith
    (h : ∀ node m v text after w rest, expand node m v text = (after, .ok (w, rest)) →
      v.Extends (expandValues node m v text) w) :
    ∀ (node : Node) (m : Mode) (v : Components) (text : List Char) {after : Mode} {w : Components}
      {rest : List Char}, readWith expand s node m v text = (after, .ok (w, rest)) →
      v.Extends (valuesWith expandValues expand s node m v text) w
  | .leaf l, m, v, text, after, w, rest, hr => by
      simp only [readWith, Prod.mk.injEq] at hr
      simp only [valuesWith]
      exact Components.extends_addResult hr.2
  | .mode change, m, v, text, after, w, rest, hr => by
      simp only [readWith, Prod.mk.injEq, Except.ok.injEq] at hr
      obtain ⟨-, rfl, -⟩ := hr
      simp only [valuesWith]
      exact v.extends_nil
  | .instant, m, v, text, after, w, rest, hr => by
      rcases hparts : expand Iso.instantParts .initial .empty text with ⟨ownMode, e | ⟨own, beyond⟩⟩
      · simp [readWith, hparts] at hr
      · simp only [readWith, valuesWith, hparts, Prod.mk.injEq] at hr ⊢
        exact Components.extends_addResult hr.2
  | .localized l, m, v, text, after, w, rest, hr => by
      cases hnodes : l.nodes s (s.parseChronology v) with
      | error e => simp [readWith, hnodes] at hr
      | ok nodes =>
          simp only [readWith, valuesWith, hnodes] at hr ⊢
          exact h _ m v text after w rest hr
  | .pad inner width fill, m, v, text, after, w, rest, hr => by
      simp only [readWith] at hr
      simp only [valuesWith]
      split at hr
      · generalize hinner : readWith expand s inner m v _ = r at hr
        obtain ⟨final, result⟩ := r
        cases result with
        | error e => simp [Mode.leaveWindowWith] at hr
        | ok p =>
            obtain ⟨u, beyond⟩ := p
            have hu : u = w := by
              simp only [Mode.leaveWindowWith, Prod.mk.injEq] at hr
              split at hr
              · simp at hr
              · simp only [Except.ok.injEq, Prod.mk.injEq] at hr
                exact hr.2.1
            subst hu
            exact extends_readWith h inner m v _ hinner
      · simp at hr
  | .group nodes false, m, v, text, after, w, rest, hr => by
      simp only [readWith] at hr
      simp only [valuesWith]
      exact extends_readAllWith h nodes m v text hr
  | .group nodes true, m, v, text, after, w, rest, hr => by
      simp only [readWith] at hr
      simp only [valuesWith]
      split at hr
      · rename_i final e hnodes
        simp only [Prod.mk.injEq, Except.ok.injEq] at hr
        obtain ⟨-, rfl, -⟩ := hr
        simp only [hnodes]
        exact v.extends_nil
      · simp only [hr]
        exact extends_readAllWith h nodes m v text hr

theorem extends_readAllWith
    (h : ∀ node m v text after w rest, expand node m v text = (after, .ok (w, rest)) →
      v.Extends (expandValues node m v text) w) :
    ∀ (nodes : List Node) (m : Mode) (v : Components) (text : List Char) {after : Mode}
      {w : Components} {rest : List Char},
      readAllWith expand s nodes m v text = (after, .ok (w, rest)) →
      v.Extends (valuesAllWith expandValues expand s nodes m v text) w
  | [], m, v, text, after, w, rest, hr => by
      simp only [readAllWith, Prod.mk.injEq, Except.ok.injEq] at hr
      obtain ⟨-, rfl, -⟩ := hr
      simp only [valuesAllWith]
      exact v.extends_nil
  | node :: nodes, m, v, text, after, w, rest, hr => by
      simp only [readAllWith] at hr
      simp only [valuesAllWith]
      split at hr
      · rename_i final u beyond hnode
        simp only [hnode]
        exact (extends_readWith h node m v text hnode).trans
          (extends_readAllWith h nodes final u beyond hr)
      · rename_i hnot
        exact absurd hr (hnot after w rest)

end

end

theorem extends_readTo {s : Settings} (depth : Nat) {node : Node} {m after : Mode}
    {v w : Components} {text rest : List Char}
    (h : readTo s depth node m v text = (after, .ok (w, rest))) :
    v.Extends (valuesTo s depth node m v text) w := by
  induction depth generalizing node m v text after w rest with
  | zero => exact extends_readWith (fun _ _ _ _ _ _ _ h => by simp at h) node m v text h
  | succ depth ih => exact extends_readWith (fun _ _ _ _ _ _ _ h => ih h) node m v text h

theorem extends_parse {s : Settings} {node : Node} {c after : Context} {text rest : List Char}
    (h : node.parse s c text = (after, .ok rest)) :
    c.current.Extends (node.values s c.mode c.current text) after.current := by
  have hr := result_parseTo s 1 node c text
  rw [show parseTo s 1 node c text = _ from h] at hr
  exact extends_readTo 1 hr.symm

/-- A node that is read changes no field that has a value: the fields that have one afterwards are
those that had it before and those of the values that count, of which no two contradict each other.
-/
theorem parse_keeps_values {s : Settings} {node : Node} {c after : Context} {text rest : List Char}
    (h : node.parse s c text = (after, .ok rest)) :
    (∀ f x, c.current.field f = some x → after.current.field f = some x) ∧
    (∀ f x y, (f, x) ∈ node.values s c.mode c.current text →
      (f, y) ∈ node.values s c.mode c.current text → x = y) ∧
    ∀ f x, after.current.field f = some x ↔
      c.current.field f = some x ∨ (f, x) ∈ node.values s c.mode c.current text := by
  have hext := extends_parse h
  refine ⟨fun f x hf => (hext f x).2 (.inl hf), fun f x y hx hy => ?_, hext⟩
  have hfx := (hext f x).2 (.inr hx)
  have hfy := (hext f y).2 (.inr hy)
  exact Option.some.inj (hfx.symm.trans hfy)

/-- The second hour of the text contradicts the first, in a section, and is forgotten with it. -/
theorem parse_keeps_values_hour :
    ∃ after,
      (group [Iso.twoDigits .hourOfDay, group [literal [' ', ':'], Iso.twoDigits .hourOfDay] true,
          pad (literal [':']) 2 ' ', Iso.twoDigits .minuteOfHour] false).parse .root
        ⟨.initial, Components.empty.set .year 7, [.empty]⟩ ['1', '0', ' ', ':', '1', '1'] =
          (after, .ok []) ∧
      after.current.field .hourOfDay = some 10 ∧ after.current.field .year = some 7 := by
  have h := @parse_keeps_values .root
    (group [Iso.twoDigits .hourOfDay, group [literal [' ', ':'], Iso.twoDigits .hourOfDay] true,
      pad (literal [':']) 2 ' ', Iso.twoDigits .minuteOfHour] false)
    ⟨.initial, Components.empty.set .year 7, [.empty]⟩ _ ['1', '0', ' ', ':', '1', '1'] [] rfl
  exact ⟨_, rfl, (h.2.2 .hourOfDay 10).2 (.inr (by decide)), h.1 .year 7 rfl⟩

end Node

end DateTimeText
