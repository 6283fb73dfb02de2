import DateTimeText.Proofs.Builder.Changes
import DateTimeText.Proofs.Builder.Numbers
import Mathlib.Data.List.Chain

/-!
# Patterns of digits alone

A pattern of a year and of numbers of fixed widths, such as `yyyyMMddHHmm`, has nothing between its
numbers. The nodes that are made of it are the year, which leaves the digits of the others, and
these; the fraction of a second that may stand at the end is not among those that it leaves digits
to.
-/

namespace DateTimeText

namespace PatternItem

variable {c : Char} {count : Nat} {rest : List Char}

theorem afterRun_replicate_append (hends : rest.head? ≠ some c) :
    afterRun c (List.replicate count c ++ rest) = rest := by
  induction count with
  | zero =>
      cases rest with
      | nil => rfl
      | cons d rest =>
          have hd : d ≠ c := fun h => hends (congrArg some h)
          simp [afterRun, hd]
  | succ count ih => simpa [List.replicate_succ, afterRun] using ih

theorem runLength_replicate_append (hends : rest.head? ≠ some c) :
    runLength c (List.replicate count c ++ rest) = count := by
  induction count with
  | zero =>
      cases rest with
      | nil => rfl
      | cons d rest =>
          have hd : d ≠ c := fun h => hends (congrArg some h)
          simp [runLength, hd]
  | succ count ih => simpa [List.replicate_succ, runLength] using ih

theorem parseFrom_run (pattern : List Char) (hletter : c.isAlpha) (hpad : c ≠ 'p')
    (hpos : 0 < count) (hends : rest.head? ≠ some c) :
    parseFrom pattern (List.replicate count c ++ rest) =
      (parseFrom pattern rest).map (letters c count :: ·) := by
  obtain ⟨k, rfl⟩ := Nat.exists_eq_succ_of_ne_zero (Nat.pos_iff_ne_zero.1 hpos)
  rw [List.replicate_succ, List.cons_append, parseFrom, if_neg hpad, if_pos hletter,
    afterRun_replicate_append hends, runLength_replicate_append hends]

/-- Runs of letters, each of another letter than the one before it, are split into these. -/
theorem parseFrom_runs (pattern : List Char) {runs : List (Char × Nat)}
    (hruns : ∀ run ∈ runs, (run.1.isAlpha ∧ run.1 ≠ 'p') ∧ 0 < run.2)
    (hdistinct : (runs.map Prod.fst).IsChain (· ≠ ·)) :
    parseFrom pattern (runs.flatMap fun run => List.replicate run.2 run.1) =
      .ok (runs.map fun run => letters run.1 run.2) := by
  induction runs with
  | nil => rw [List.flatMap_nil, parseFrom, List.map_nil]
  | cons run runs ih =>
      rw [List.forall_mem_cons] at hruns
      rw [List.map_cons, List.isChain_cons] at hdistinct
      obtain ⟨⟨⟨hletter, hpad⟩, hpos⟩, hrest⟩ := hruns
      have hends : (runs.flatMap fun run => List.replicate run.2 run.1).head? ≠ some run.1 := by
        cases runs with
        | nil => simp
        | cons next runs =>
            obtain ⟨k, hk⟩ := Nat.exists_eq_succ_of_ne_zero
              (Nat.pos_iff_ne_zero.1 (hrest next List.mem_cons_self).2)
            rw [List.flatMap_cons, hk, List.replicate_succ, List.cons_append, List.head?_cons]
            intro h
            exact hdistinct.1 next.1 rfl (Option.some.inj h).symm
      rw [List.flatMap_cons, parseFrom_run pattern hletter hpad hpos hends, ih hrest hdistinct.2,
        List.map_cons]
      rfl

end PatternItem

theorem Field.isAlpha_of_ofLetter? {c : Char} {f : Field} (h : ofLetter? c = some f) :
    c.isAlpha ∧ c ≠ 'p' := by
  unfold ofLetter? at h
  split at h
  all_goals first | exact ⟨rfl, by decide⟩ | cases h

theorem Field.ne_instantSeconds_of_ofLetter? {c : Char} {f : Field} (h : ofLetter? c = some f) :
    f ≠ .instantSeconds := by
  rintro rfl
  unfold ofLetter? at h
  split at h
  all_goals cases h

/-- A run of a letter that stands for a field with as many digits. Letters whose field has a text
stand for its number only if there are two of them. -/
structure DigitLetters where
  letter : Char
  field : Field
  count : Nat
  ofLetter?_eq : Field.ofLetter? letter = some field
  letter_ne : letter ≠ 'y' ∧ letter ≠ 'a' ∧ letter ≠ 'S'
  two_le_count : 2 ≤ count
  count_eq_two : letter = 'G' ∨ letter = 'M' ∨ letter = 'Q' ∨ letter = 'E' → count = 2

def DigitLetters.pair (letter : Char) (field : Field) (h : Field.ofLetter? letter = some field)
    (hletter : letter ≠ 'y' ∧ letter ≠ 'a' ∧ letter ≠ 'S') : DigitLetters :=
  ⟨letter, field, 2, h, hletter, Nat.le_refl 2, fun _ => rfl⟩

/-- A pattern of digits alone: a year of variable width, numbers of fixed widths, and some digits of
the fraction of a second if there are any. -/
structure Timestamp where
  years : Nat
  numbers : List DigitLetters
  fraction : Nat
  years_pos : 0 < years
  years_ne_two : years ≠ 2
  years_lt : years < maxDigits
  distinct : (numbers.map DigitLetters.letter).IsChain (· ≠ ·)

namespace Timestamp

variable (t : Timestamp)

def runs : List (Char × Nat) :=
  ('y', t.years) :: t.numbers.map (fun number => (number.letter, number.count)) ++
    if t.fraction = 0 then [] else [('S', t.fraction)]

def pattern : List Char :=
  t.runs.flatMap fun run => List.replicate run.2 run.1

/-- The fields that are written, but for that of the fraction. -/
def fields : List Field :=
  .year :: t.numbers.map DigitLetters.field

def sign : SignStyle :=
  if t.years ≤ 3 then .normal else .exceedsPad

def steps : List NumberStep :=
  .valueWith .year t.years maxDigits t.sign ::
    t.numbers.map fun number => .fixed number.field number.count

/-- The leaf of the fraction, if there is one. -/
def fractionLeaves : List Leaf :=
  if t.fraction = 0 then [] else [.fraction (.nanoDigits t.fraction)]

theorem parseAll_pattern :
    PatternItem.parseAll t.pattern = .ok (t.runs.map fun run => .letters run.1 run.2) := by
  refine PatternItem.parseFrom_runs t.pattern ?letters ?distinct
  case letters =>
    intro run hrun
    rcases List.mem_append.1 hrun with hrun | hrun
    · rcases List.mem_cons.1 hrun with rfl | hrun
      · exact ⟨⟨rfl, (by decide : 'y' ≠ 'p')⟩, t.years_pos⟩
      · obtain ⟨number, -, rfl⟩ := List.mem_map.1 hrun
        have := number.two_le_count
        exact ⟨Field.isAlpha_of_ofLetter? number.ofLetter?_eq, by omega⟩
    · split at hrun
      · cases hrun
      · cases List.mem_singleton.1 hrun
        exact ⟨⟨rfl, (by decide : 'S' ≠ 'p')⟩, Nat.pos_of_ne_zero ‹_›⟩
  case distinct =>
    have hletters : t.runs.map Prod.fst = ('y' :: t.numbers.map DigitLetters.letter) ++
        if t.fraction = 0 then [] else ['S'] := by
      rw [runs, List.map_append, List.map_cons, List.map_map, apply_ite (List.map Prod.fst)]
      rfl
    rw [hletters]
    refine (t.distinct.cons ?_).append ?_ ?_
    · rintro c hc rfl
      obtain ⟨number, -, hy⟩ := List.mem_map.1 (List.mem_of_mem_head? hc)
      exact number.letter_ne.1 hy
    · split
      · exact .nil
      · exact .singleton _
    · rintro c hc d hd rfl
      split at hd
      · cases hd
      · cases hd
        rcases List.mem_cons.1 (List.mem_of_mem_getLast? hc) with hy | hnumber
        · cases hy
        · obtain ⟨number, -, hS⟩ := List.mem_map.1 hnumber
          exact number.letter_ne.2.2 hS

/-- The timestamp of a second, with some digits of a fraction of it. -/
def ofSeconds (fraction : Nat) : Timestamp where
  years := 4
  numbers := [
    .pair 'M' .monthOfYear rfl (by decide), .pair 'd' .dayOfMonth rfl (by decide),
    .pair 'H' .hourOfDay rfl (by decide), .pair 'm' .minuteOfHour rfl (by decide),
    .pair 's' .secondOfMinute rfl (by decide)]
  fraction := fraction
  years_pos := by decide
  years_ne_two := by decide
  years_lt := by decide
  distinct := by decide

end Timestamp

namespace Scope

theorem pendingPad_push (sc : Scope) (node : Node) : (sc.push node).pendingPad = none := by
  rw [push]
  split
  · rfl
  · rfl

theorem pendingPad_add (sc : Scope) (part : RowPart) : (sc.add part).pendingPad = none := by
  rcases part with ⟨c, cs⟩ | ⟨_ | _ | _, n⟩
  · exact pendingPad_push sc _
  · exact pendingPad_push sc _
  · rw [add, pushFixed]
    split
    · exact pendingPad_push sc _
    · exact pendingPad_push _ _
  · exact pendingPad_push sc _

theorem pendingPad_foldl_add (parts : List RowPart) {sc : Scope} (h : sc.pendingPad = none) :
    (parts.foldl add sc).pendingPad = none := by
  induction parts generalizing sc with
  | nil => exact h
  | cons part parts ih => exact ih (pendingPad_add sc part)

end Scope

namespace Builder

variable {b after : Builder}

/-- A pattern of one run of a letter is a step of the builder. -/
theorem appendPattern_run (b : Builder) {c : Char} {count : Nat} (hletter : c.isAlpha)
    (hpad : c ≠ 'p') (hpos : 0 < count) :
    b.appendPattern (List.replicate count c) = b.appendLetters c count := by
  have hitems : PatternItem.parseAll (List.replicate count c) = .ok [.letters c count] := by
    have hends : ([] : List Char).head? ≠ some c := nofun
    have hrun := PatternItem.parseFrom_run (List.replicate count c) hletter hpad hpos hends
    rwa [List.append_nil, PatternItem.parseFrom] at hrun
  rw [appendPattern, hitems]
  exact bind_pure (b.appendLetters c count)

theorem appendLetters_year (b : Builder) (t : Timestamp) :
    b.appendLetters 'y' t.years = b.step (.valueWith .year t.years maxDigits t.sign) := by
  have hyears := t.years_lt
  have hwidth : letterWidth t.years = .ok t.years := if_neg (by rw [maxDigits] at hyears; omega)
  have hyear : b.appendLetters 'y' t.years = b.appendYear t.years := rfl
  rw [hyear, appendYear, if_neg t.years_ne_two, hwidth]
  rfl

theorem appendLetters_digits (b : Builder) (number : DigitLetters) :
    b.appendLetters number.letter number.count = b.step (.fixed number.field number.count) := by
  obtain ⟨hy, ha, hS⟩ := number.letter_ne
  have hcount := number.two_le_count
  rw [appendLetters, number.ofLetter?_eq]
  dsimp only
  rw [appendField, if_neg hy]
  by_cases htext : number.letter = 'G' ∨ number.letter = 'M' ∨ number.letter = 'Q' ∨
      number.letter = 'E'
  · rw [if_pos htext, number.count_eq_two htext]
    rfl
  rw [if_neg htext, if_neg ha, if_neg hS, if_neg (by omega), letterWidth]
  split
  · rename_i hwide
    exact (if_pos (.inr (by rw [maxDigits]; omega))).symm
  · rfl

theorem appendLetters_fraction {count : Nat} (h : b.appendLetters 'S' count = .ok after) :
    (0 < count ∧ count ≤ 9) ∧ after = b.append (.leaf (.fraction (.nanoDigits count))) := by
  have hfraction : (letterWidth count >>= fun width =>
      b.appendFraction .nanoOfSecond width width false) = .ok after := h
  obtain ⟨hsized, rfl⟩ := appendFraction_eq_ok (eq_ok_of_letterWidth_bind hfraction)
  exact ⟨⟨hsized.one_le_maxWidth, hsized.maxWidth_le⟩, rfl⟩

/-- The items before the fraction are the steps of the year and of the numbers. -/
theorem foldlM_timestamp (b : Builder) (t : Timestamp) :
    (.letters 'y' t.years :: t.numbers.map fun number =>
      PatternItem.letters number.letter number.count).foldlM applyItem b =
        b.steps (t.steps.map NumberStep.toStep) := by
  have hnumbers : ∀ b : Builder,
      (t.numbers.map fun number => PatternItem.letters number.letter number.count).foldlM
        applyItem b =
      b.steps ((t.numbers.map fun number => NumberStep.fixed number.field number.count).map
        NumberStep.toStep) := by
    intro b
    rw [steps, List.map_map, List.foldlM_map, List.foldlM_map]
    exact congrArg (List.foldlM · b t.numbers) (funext₂ appendLetters_digits)
  rw [steps, Timestamp.steps, List.map_cons, List.foldlM_cons, List.foldlM_cons, applyItem,
    appendLetters_year]
  exact congrArg (_ >>= ·) (funext hnumbers)

theorem nodes_append (henclosing : b.enclosing = []) (hpad : b.active.pendingPad = none)
    (node : Node) : (b.append node).nodes = b.nodes ++ [node] := by
  obtain ⟨active, enclosing, texts⟩ := b
  cases henclosing
  exact congrArg Scope.nodes (Scope.push_of_unpadded hpad node)

/-- The nodes that a builder makes of a timestamp. -/
theorem nodes_of_timestamp {texts : TextSource} {t : Timestamp}
    (h : (withTexts texts).appendPattern t.pattern = .ok b) :
    (∀ x ∈ t.steps, x.part.Valid) ∧ t.fraction ≤ 9 ∧
      b.nodes =
        (RowPart.leaves false (t.steps.map NumberStep.part) ++ t.fractionLeaves).map .leaf := by
  have hitems : (t.runs.map fun run => PatternItem.letters run.1 run.2) =
      (.letters 'y' t.years :: t.numbers.map fun number =>
        PatternItem.letters number.letter number.count) ++
          if t.fraction = 0 then [] else [.letters 'S' t.fraction] := by
    rw [Timestamp.runs, List.map_append, List.map_cons, List.map_map, apply_ite (List.map _)]
    rfl
  have hfold : (t.runs.map fun run => PatternItem.letters run.1 run.2).foldlM applyItem
      (withTexts texts) = .ok b := by
    rw [appendPattern, t.parseAll_pattern] at h
    exact h
  rw [hitems, List.foldlM_append, foldlM_timestamp] at hfold
  cases hsteps : (withTexts texts).steps (t.steps.map NumberStep.toStep) with
  | error e =>
      rw [hsteps] at hfold
      cases hfold
  | ok row =>
      rw [hsteps] at hfold
      obtain ⟨hvalid, hrow⟩ := steps_toStep hsteps
      have hnodes := (nodes_of_number_steps hsteps).2
      refine ⟨hvalid, ?_⟩
      by_cases hzero : t.fraction = 0
      · rw [if_pos hzero] at hfold
        cases hfold
        refine ⟨by omega, ?_⟩
        rw [hnodes, Timestamp.fractionLeaves, if_pos hzero, List.append_nil]
      · rw [if_neg hzero] at hfold
        change [PatternItem.letters 'S' t.fraction].foldlM applyItem row = .ok b at hfold
        have hlast : row.appendLetters 'S' t.fraction = .ok b := by
          simpa [applyItem] using hfold
        obtain ⟨hfraction, rfl⟩ := appendLetters_fraction hlast
        have henclosing : row.enclosing = [] := by
          rw [hrow]
          rfl
        have hpad : row.active.pendingPad = none := by
          rw [hrow]
          exact Scope.pendingPad_foldl_add _ rfl
        refine ⟨hfraction.2, ?_⟩
        rw [nodes_append henclosing hpad, hnodes, Timestamp.fractionLeaves, if_neg hzero,
          List.map_append]
        rfl

end Builder

end DateTimeText
