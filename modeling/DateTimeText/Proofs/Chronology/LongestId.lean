import DateTimeText.Proofs.Node.LongestMatch
import Mathlib.Data.List.Induction

/-!
# Chronologies are read by their longest id

Of the chronologies that are known, the one is read whose id is the longest that a text starts with,
and of several with ids of this length the first. With regard to case it does not matter in which
order chronologies of different ids are known, also where one id starts another.
-/

namespace DateTimeText

/-- A text starts with an expected one, up to the case if the mode does not regard it. -/
def Mode.Matches (mode : Mode) (expected text rest : List Char) : Prop :=
  ∃ front, List.Forall₂ (fun a c => mode.sameChar a c = true) expected front ∧
    text = front ++ rest

theorem Mode.matches_iff {mode : Mode} {expected text rest : List Char} :
    mode.Matches expected text rest ↔ mode.strip? expected text = some rest := by
  induction expected generalizing text with
  | nil =>
      rw [strip?, Option.some_inj]
      constructor
      · rintro ⟨front, ⟨⟩, rfl⟩
        rfl
      · rintro rfl
        exact ⟨[], .nil, rfl⟩
  | cons e expected ih =>
      constructor
      · rintro ⟨front, hsame, rfl⟩
        cases hsame with
        | cons hc hsame =>
            rw [List.cons_append, strip?, if_pos hc]
            exact ih.1 ⟨_, hsame, rfl⟩
      · intro h
        cases text with
        | nil => cases h
        | cons c text =>
            rw [strip?] at h
            split at h
            · rename_i hc
              obtain ⟨front, hsame, rfl⟩ := ih.2 h
              exact ⟨c :: front, .cons hc hsame, rfl⟩
            · cases h

namespace Chronology

/-- A text starts with the id of a chronology. -/
def Fits (mode : Mode) (text : List Char) (c : Chronology) : Prop :=
  ∃ rest, mode.Matches c.id.toList text rest

/-- What is read of a text: a chronology with its id in front of the rest, none with a longer id, and
none with as long an id before it. -/
structure IsFirstLongest (mode : Mode) (chronologies : List Chronology) (text : List Char)
    (best : Chronology) (rest : List Char) : Prop where
  text_eq : mode.Matches best.id.toList text rest
  longest : ∀ other ∈ chronologies, other.Fits mode text → other.id.length ≤ best.id.length
  first : ∃ before after, chronologies = before ++ best :: after ∧
    ∀ other ∈ before, other.Fits mode text → other.id.length < best.id.length

/-- What a search through a list has found. -/
def Found (mode : Mode) (chronologies : List Chronology) (text : List Char) :
    Option (Chronology × List Char) → Prop
  | some (best, rest) => IsFirstLongest mode chronologies text best rest
  | none => ∀ c ∈ chronologies, ¬ c.Fits mode text

variable {mode : Mode} {text rest : List Char} {chronologies : List Chronology}
  {best next : Chronology}

theorem not_fits_of_strip? (h : mode.strip? next.id.toList text = none) :
    ¬ next.Fits mode text := by
  rintro ⟨rest, hrest⟩
  rw [Mode.matches_iff.1 hrest] at h
  cases h

theorem IsFirstLongest.mem (h : IsFirstLongest mode chronologies text best rest) :
    best ∈ chronologies := by
  obtain ⟨before, after, rfl, -⟩ := h.first
  exact List.mem_append_right before List.mem_cons_self

theorem IsFirstLongest.append (h : IsFirstLongest mode chronologies text best rest)
    (hnext : next.Fits mode text → next.id.length ≤ best.id.length) :
    IsFirstLongest mode (chronologies ++ [next]) text best rest := by
  refine ⟨h.text_eq, ?_, ?_⟩
  · rw [List.forall_mem_append, List.forall_mem_singleton]
    exact ⟨h.longest, hnext⟩
  · obtain ⟨before, after, rfl, hbefore⟩ := h.first
    exact ⟨before, after ++ [next], by rw [List.append_assoc, List.cons_append], hbefore⟩

theorem isFirstLongest_concat (hnext : mode.Matches next.id.toList text rest)
    (hlonger : ∀ other ∈ chronologies, other.Fits mode text → other.id.length < next.id.length) :
    IsFirstLongest mode (chronologies ++ [next]) text next rest := by
  refine ⟨hnext, ?_, chronologies, [], rfl, hlonger⟩
  rw [List.forall_mem_append, List.forall_mem_singleton]
  exact ⟨fun other hmem hother => Nat.le_of_lt (hlonger other hmem hother),
    fun _ => Nat.le_refl _⟩

/-- One more chronology is looked at only if its id is longer than the one that was found. -/
theorem Found.better {found : Option (Chronology × List Char)}
    (h : Found mode chronologies text found) (next : Chronology) :
    Found mode (chronologies ++ [next]) text (better mode text found next) := by
  cases found with
  | none =>
      rw [Chronology.better, Option.any_none, if_neg Bool.false_ne_true]
      cases hstrip : mode.strip? next.id.toList text with
      | some rest =>
          apply isFirstLongest_concat (Mode.matches_iff.2 hstrip)
          intro other hmem hother
          exact absurd hother (h other hmem)
      | none =>
          have hnone : ∀ c ∈ chronologies, ¬ c.Fits mode text := h
          apply List.forall_mem_append.2 ⟨hnone, List.forall_mem_singleton.2 ?_⟩
          exact not_fits_of_strip? hstrip
  | some found =>
      obtain ⟨best, rest⟩ := found
      by_cases hle : next.id.length ≤ best.id.length
      · rw [Chronology.better, Option.any_some, if_pos (decide_eq_true hle)]
        exact IsFirstLongest.append h fun _ => hle
      · rw [Chronology.better, Option.any_some, if_neg (by rwa [decide_eq_true_eq])]
        cases hstrip : mode.strip? next.id.toList text with
        | some rest =>
            apply isFirstLongest_concat (Mode.matches_iff.2 hstrip)
            intro other hmem hother
            exact Nat.lt_of_le_of_lt (h.longest other hmem hother) (Nat.lt_of_not_le hle)
        | none =>
            apply IsFirstLongest.append h
            intro hnext
            exact absurd hnext (not_fits_of_strip? hstrip)

theorem found_longest? (mode : Mode) (chronologies : List Chronology) (text : List Char) :
    Found mode chronologies text (longest? mode chronologies text) := by
  induction chronologies using List.reverseRecOn with
  | nil => exact List.forall_mem_nil _
  | append_singleton chronologies next ih =>
      rw [longest?, List.foldl_append]
      exact ih.better next

/-- Two ids of the same length at the start of a text are the same with regard to case. -/
theorem IsFirstLongest.eq_of_mem_iff (hcase : mode.caseSensitive = true)
    (hdistinct : (chronologies.map (·.id)).Nodup) {reordered : List Chronology}
    (hmem : ∀ c, c ∈ reordered ↔ c ∈ chronologies) {best' : Chronology} {rest' : List Char}
    (h : IsFirstLongest mode reordered text best rest)
    (h' : IsFirstLongest mode chronologies text best' rest') : best = best' ∧ rest = rest' := by
  have htext := (Mode.strip?_eq_some_iff hcase).1 (Mode.matches_iff.1 h.text_eq)
  have htext' := (Mode.strip?_eq_some_iff hcase).1 (Mode.matches_iff.1 h'.text_eq)
  have hlength : best.id.length = best'.id.length :=
    Nat.le_antisymm (h'.longest best ((hmem best).1 h.mem) ⟨rest, h.text_eq⟩)
      (h.longest best' ((hmem best').2 h'.mem) ⟨rest', h'.text_eq⟩)
  obtain ⟨hid, hrest⟩ := List.append_inj (htext.symm.trans htext') hlength
  refine ⟨?_, hrest⟩
  exact List.inj_on_of_nodup_map hdistinct ((hmem best).1 h.mem) h'.mem (String.toList_inj.1 hid)

theorem longest?_perm (hcase : mode.caseSensitive = true)
    (hdistinct : (chronologies.map (·.id)).Nodup) {reordered : List Chronology}
    (hperm : reordered.Perm chronologies) (text : List Char) :
    longest? mode reordered text = longest? mode chronologies text := by
  have h := found_longest? mode reordered text
  have h' := found_longest? mode chronologies text
  cases hfound : longest? mode reordered text with
  | none =>
      cases hfound' : longest? mode chronologies text with
      | none => rfl
      | some found =>
          rw [hfound] at h
          rw [hfound'] at h'
          exact absurd ⟨_, h'.text_eq⟩ (h found.1 (hperm.mem_iff.2 h'.mem))
  | some found =>
      rw [hfound] at h
      cases hfound' : longest? mode chronologies text with
      | none =>
          rw [hfound'] at h'
          exact absurd ⟨_, h.text_eq⟩ (h' found.1 (hperm.mem_iff.1 h.mem))
      | some found' =>
          rw [hfound'] at h'
          obtain ⟨hbest, hrest⟩ := IsFirstLongest.eq_of_mem_iff hcase hdistinct
            (fun c => hperm.mem_iff) h h'
          exact congrArg some (Prod.ext hbest hrest)

end Chronology

namespace Node

theorem parse_chronology (s : Settings) (style : Option TextStyle) (c : Context)
    (text : List Char) :
    (leaf (.chronology style)).parse s c text =
      match Chronology.longest? c.mode s.chronologies text with
      | some (best, rest) => ({ c with current := c.current.withChronology best }, .ok rest)
      | none => (c, .error text) := by
  rw [parse_leaf, Leaf.read, Chronology.read]
  cases Chronology.longest? c.mode s.chronologies text with
  | none => rfl
  | some found => rfl

/-- A chronology is read by its longest id, and the first of several with an id of this length. If no
id stands at the start of the text, the node fails there. With regard to case, and if no two ids are
the same, the order of the chronologies does not matter. -/
theorem parse_chronology_longest (s : Settings) (style : Option TextStyle) (c : Context)
    (text : List Char) :
    let node := leaf (.chronology style)
    ((∃ best rest, Chronology.IsFirstLongest c.mode s.chronologies text best rest ∧
          node.parse s c text =
            ({ c with current := c.current.withChronology best }, .ok rest)) ∨
        (∀ other ∈ s.chronologies, ¬ other.Fits c.mode text) ∧
          node.parse s c text = (c, .error text)) ∧
      (c.mode.caseSensitive = true → (s.chronologies.map (·.id)).Nodup →
        ∀ reordered, reordered.Perm s.chronologies →
          node.parse { s with chronologies := reordered } c text = node.parse s c text) := by
  intro node
  constructor
  · have hfound := Chronology.found_longest? c.mode s.chronologies text
    have hparse := parse_chronology s style c text
    cases hlongest : Chronology.longest? c.mode s.chronologies text with
    | some found =>
        rw [hlongest] at hfound hparse
        exact .inl ⟨found.1, found.2, hfound, hparse⟩
    | none =>
        rw [hlongest] at hfound hparse
        exact .inr ⟨hfound, hparse⟩
  · intro hcase hdistinct reordered hperm
    rw [parse_chronology, parse_chronology, Chronology.longest?_perm hcase hdistinct hperm]

/-- Two ids that start with `ISO`, one of which is too long for the text, in both orders. -/
theorem parse_chronology_longest_shared :
    let iso : Chronology := ⟨"ISO", "iso8601", 0⟩
    let short : Chronology := ⟨"I", "short", 5⟩
    let long : Chronology := ⟨"ISO-week", "week", 0⟩
    let s : Settings := { Settings.root with chronologies := [short, iso, long] }
    let c := Context.initial
    (c.mode.caseSensitive = true ∧ (s.chronologies.map (·.id)).Nodup ∧
        [long, iso, short].Perm s.chronologies) ∧
      (leaf (.chronology none)).parse { s with chronologies := [long, iso, short] } c
          ['I', 'S', 'O', '-', '1'] =
        ({ c with current := c.current.withChronology iso }, .ok ['-', '1']) := by
  intro iso short long s c
  have hdistinct : (s.chronologies.map (·.id)).Nodup := by decide
  have hperm : [long, iso, short].Perm s.chronologies := List.reverse_perm [short, iso, long]
  refine ⟨⟨rfl, hdistinct, hperm⟩, ?_⟩
  obtain ⟨-, horder⟩ := parse_chronology_longest s none c ['I', 'S', 'O', '-', '1']
  have hlongest : Chronology.longest? c.mode s.chronologies ['I', 'S', 'O', '-', '1'] =
      some (iso, ['-', '1']) := by decide
  rw [horder rfl hdistinct _ hperm, parse_chronology, hlongest]

end Node

end DateTimeText
