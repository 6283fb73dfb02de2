import DateTimeText.Pattern
import Mathlib.Algebra.Group.Nat.Even
import Mathlib.Data.List.Basic

/-!
# The grammar of patterns

Which texts are patterns, said of the text alone: every quote is closed, and outside of quotes no
brace stands, no section ends that was not started, and each letter is written as often as it may
be. A text is checked run by run, which is how it is split into items.
-/

namespace DateTimeText

namespace Pattern

/-- The characters of a text in their places, without those in quotes and the quotes themselves. A
doubled apostrophe inside of a quote ends it and starts it again. -/
def bare (quoted : Bool) : List Char → List (Option Char)
  | [] => []
  | c :: cs =>
    if c = '\'' then none :: bare (!quoted) cs
    else (if quoted then none else some c) :: bare quoted cs

/-- The least and the greatest number of times that a letter is written in a row. -/
def counts? : Char → Option (Nat × Nat)
  | 'G' | 'M' | 'Q' | 'E' | 'a' | 'X' | 'x' => some (1, 5)
  | 'y' | 'D' | 'd' | 'F' | 'H' | 'k' | 'K' | 'h' | 'm' | 's' | 'A' | 'n' | 'N' => some (1, 19)
  | 'S' => some (1, 9)
  | 'z' => some (1, 4)
  | 'V' => some (2, 2)
  | 'Z' => some (1, 3)
  | _ => none

def Admits (c : Char) (count : Nat) : Prop :=
  ∃ least greatest, counts? c = some (least, greatest) ∧ least ≤ count ∧ count ≤ greatest

/-- A letter stands `count` times in a row between two parts of a text, and no more often. -/
structure IsRun (text before : List (Option Char)) (c : Char) (count : Nat)
    (after : List (Option Char)) : Prop where
  letter : c.isAlpha
  text_eq : text = before ++ (List.replicate count (some c) ++ after)
  pos : 0 < count
  starts : before.getLast? ≠ some (some c)
  ends : after.head? ≠ some (some c)

/-- A pad has another letter behind it, and any other letter is written as often as it may be. -/
def RunFits (c : Char) (count : Nat) (after : List (Option Char)) : Prop :=
  if c = 'p' then ∃ d : Char, d.isAlpha ∧ after.head? = some (some d) else Admits c count

def RunsFit (text : List (Option Char)) : Prop :=
  ∀ before c count after, IsRun text before c count after → RunFits c count after

/-- No more sections end than are started, if `depth` of them are open at the start of a text. -/
def Nests (depth : Nat) (text : List (Option Char)) : Prop :=
  ∀ front, front <+: text → front.count (some ']') ≤ front.count (some '[') + depth

/-- What is demanded of a pattern outside of quotes. -/
@[mk_iff]
structure WellFormed (depth : Nat) (text : List (Option Char)) : Prop where
  no_braces : ∀ x ∈ text, x ≠ some '\x7b' ∧ x ≠ some '\x7d'
  nests : Nests depth text
  runs : RunsFit text

/-- The texts that are patterns, inside of `depth` open sections. The second apostrophe of each two
ends what the first starts. -/
@[mk_iff]
structure IsGrammatical (depth : Nat) (pattern : List Char) : Prop where
  quotes : Even (pattern.count '\'')
  outside : WellFormed depth (bare false pattern)

variable {depth count : Nat} {c : Char} {x : Option Char} {text : List (Option Char)}

/-! ### Sections -/

theorem nests_nil : Nests depth [] := by
  intro front hfront
  simp [List.prefix_nil.1 hfront]

theorem nests_cons_iff : Nests depth (x :: text) ↔
    ∀ front, front <+: text →
      (x :: front).count (some ']') ≤ (x :: front).count (some '[') + depth := by
  constructor
  · intro h front hfront
    exact h (x :: front) (List.prefix_cons_inj x |>.2 hfront)
  · intro h front hfront
    rcases List.prefix_cons_iff.1 hfront with rfl | ⟨front, rfl, hrest⟩
    · simp
    · exact h front hrest

theorem nests_cons_of_ne (hopen : x ≠ some '[') (hclose : x ≠ some ']') :
    Nests depth (x :: text) ↔ Nests depth text := by
  rw [nests_cons_iff]
  simp only [List.count_cons_of_ne hopen, List.count_cons_of_ne hclose]
  rfl

theorem nests_open_cons : Nests depth (some '[' :: text) ↔ Nests (depth + 1) text := by
  rw [nests_cons_iff]
  apply forall₂_congr
  intro front _
  rw [List.count_cons_of_ne (by decide), List.count_cons_self]
  omega

theorem nests_close_cons : Nests depth (some ']' :: text) ↔ 0 < depth ∧ Nests (depth - 1) text := by
  rw [nests_cons_iff]
  simp only [List.count_cons_self, List.count_cons_of_ne (show some ']' ≠ some '[' by decide)]
  constructor
  · intro h
    have hpos : 0 < depth := by
      have := h [] List.nil_prefix
      simp only [List.count_nil] at this
      omega
    refine ⟨hpos, fun front hfront => ?_⟩
    have := h front hfront
    omega
  · rintro ⟨hpos, h⟩ front hfront
    have := h front hfront
    omega

/-! ### Runs -/

theorem runsFit_nil : RunsFit [] := by
  intro before c count after h
  have hlength := congrArg List.length h.text_eq
  simp only [List.length_nil, List.length_append, List.length_replicate] at hlength
  have := h.pos
  omega

theorem IsRun.append_left {before after : List (Option Char)} (h : IsRun text before c count after)
    (front : List (Option Char)) (hfront : before = [] → front.getLast? ≠ some (some c)) :
    IsRun (front ++ text) (front ++ before) c count after := by
  refine ⟨h.letter, by rw [h.text_eq, List.append_assoc], h.pos, ?_, h.ends⟩
  rw [List.getLast?_append]
  cases hlast : before.getLast? with
  | none => exact hfront (List.getLast?_eq_none_iff.1 hlast)
  | some last =>
      rw [Option.some_or, ← hlast]
      exact h.starts

theorem IsRun.of_append_left (front : List (Option Char)) {before after : List (Option Char)}
    (h : IsRun (front ++ text) (front ++ before) c count after) :
    IsRun text before c count after := by
  refine ⟨h.letter, ?_, h.pos, ?_, h.ends⟩
  · have htext := h.text_eq
    rwa [List.append_assoc, List.append_cancel_left_eq] at htext
  · intro hlast
    apply h.starts
    rw [List.getLast?_append, hlast]
    rfl

theorem IsRun.head?_eq {after : List (Option Char)} (h : IsRun text [] c count after) :
    text.head? = some (some c) := by
  obtain ⟨k, rfl⟩ := Nat.exists_eq_succ_of_ne_zero (Nat.ne_of_gt h.pos)
  rw [h.text_eq, List.nil_append, List.replicate_succ]
  rfl

/-- A character that is no letter is no part of a run. -/
theorem runsFit_cons_of_not_letter (hx : ∀ c : Char, c.isAlpha → x ≠ some c) :
    RunsFit (x :: text) ↔ RunsFit text := by
  constructor
  · intro h before c count after hrun
    apply h (x :: before)
    exact hrun.append_left [x] fun _ hlast => hx c hrun.letter (by simpa using hlast)
  · intro h before c count after hrun
    cases before with
    | nil =>
        have hhead := hrun.head?_eq
        exact absurd (by simpa using hhead) (hx c hrun.letter)
    | cons first before =>
        obtain rfl : x = first := (List.cons.inj hrun.text_eq).1
        exact h before c count after (IsRun.of_append_left [x] hrun)

/-- A list splits in one way into a row of an element and a rest that does not go on with it. -/
theorem eq_of_replicate_append_eq {α : Type*} {a : α} {m n : Nat} {s t : List α}
    (h : List.replicate m a ++ s = List.replicate n a ++ t) (hs : s.head? ≠ some a)
    (ht : t.head? ≠ some a) : m = n ∧ s = t := by
  induction m generalizing n with
  | zero =>
      cases n with
      | zero => exact ⟨rfl, h⟩
      | succ n =>
          rw [List.replicate_zero, List.nil_append] at h
          simp [h, List.replicate_succ] at hs
  | succ m ih =>
      cases n with
      | zero =>
          rw [List.replicate_zero, List.nil_append] at h
          simp [← h, List.replicate_succ] at ht
      | succ n =>
          rw [List.replicate_succ, List.replicate_succ, List.cons_append, List.cons_append] at h
          obtain ⟨rfl, rfl⟩ := ih (List.cons.inj h).2
          exact ⟨rfl, rfl⟩

theorem runsFit_run_append (hc : c.isAlpha) (hpos : 0 < count) (hends : text.head? ≠ some (some c)) :
    RunsFit (List.replicate count (some c) ++ text) ↔ RunFits c count text ∧ RunsFit text := by
  constructor
  · intro h
    refine ⟨h [] c count text ⟨hc, rfl, hpos, by simp, hends⟩, fun before d k after hrun => ?_⟩
    apply h (List.replicate count (some c) ++ before)
    apply hrun.append_left (List.replicate count (some c))
    rintro rfl hlast
    obtain rfl : c = d := by
      have := List.mem_of_getLast? hlast
      simpa using (List.eq_of_mem_replicate this).symm
    exact hends hrun.head?_eq
  · rintro ⟨hfits, hrest⟩ before d k after hrun
    rcases List.append_eq_append_iff.1 hrun.text_eq with ⟨inside, rfl, -⟩ | ⟨shared, hrow, hshared⟩
    · exact hrest inside d k after (IsRun.of_append_left _ hrun)
    cases shared with
    | nil =>
        obtain rfl : before = List.replicate count (some c) := by simpa using hrow.symm
        apply hrest [] d k after
        apply IsRun.of_append_left (List.replicate count (some c))
        simpa using hrun
    | cons first shared =>
        -- the two rows share a character, so they start together
        have hfirst : first = some c := List.eq_of_mem_replicate (by rw [hrow]; simp)
        obtain rfl : c = d := by
          have hmem : first ∈ List.replicate k (some d) := by
            obtain ⟨j, rfl⟩ := Nat.exists_eq_succ_of_ne_zero (Nat.ne_of_gt hrun.pos)
            rw [List.replicate_succ, List.cons_append, List.cons_append] at hshared
            simp [List.replicate_succ, (List.cons.inj hshared).1]
          simpa [hfirst] using List.eq_of_mem_replicate hmem
        obtain rfl : before = [] := by
          by_contra hne
          apply hrun.starts
          rw [List.getLast?_eq_getLast_of_ne_nil hne]
          congr 1
          exact List.eq_of_mem_replicate (by rw [hrow]; simp)
        obtain ⟨rfl, rfl⟩ := eq_of_replicate_append_eq hrun.text_eq hends hrun.ends
        exact hfits

/-! ### Texts that start with a known part -/

theorem wellFormed_nil : WellFormed depth [] :=
  ⟨by simp, nests_nil, runsFit_nil⟩

theorem wellFormed_cons_iff (hletter : ∀ c : Char, c.isAlpha → x ≠ some c)
    (hbraces : x ≠ some '\x7b' ∧ x ≠ some '\x7d') :
    WellFormed depth (x :: text) ↔ Nests depth (x :: text) ∧
      (∀ y ∈ text, y ≠ some '\x7b' ∧ y ≠ some '\x7d') ∧ RunsFit text := by
  rw [wellFormed_iff, List.forall_mem_cons, runsFit_cons_of_not_letter hletter]
  constructor
  · rintro ⟨⟨-, hrest⟩, hnests, hruns⟩
    exact ⟨hnests, hrest, hruns⟩
  · rintro ⟨hnests, hrest, hruns⟩
    exact ⟨⟨hbraces, hrest⟩, hnests, hruns⟩

theorem wellFormed_open_cons :
    WellFormed depth (some '[' :: text) ↔ WellFormed (depth + 1) text := by
  rw [wellFormed_cons_iff (by rintro c hc ⟨⟩; simp at hc) (by simp), nests_open_cons,
    wellFormed_iff]
  constructor
  · rintro ⟨hnests, hrest, hruns⟩
    exact ⟨hrest, hnests, hruns⟩
  · rintro ⟨hrest, hnests, hruns⟩
    exact ⟨hnests, hrest, hruns⟩

theorem wellFormed_close_cons :
    WellFormed depth (some ']' :: text) ↔ 0 < depth ∧ WellFormed (depth - 1) text := by
  rw [wellFormed_cons_iff (by rintro c hc ⟨⟩; simp at hc) (by simp), nests_close_cons,
    wellFormed_iff]
  constructor
  · rintro ⟨⟨hpos, hnests⟩, hrest, hruns⟩
    exact ⟨hpos, hrest, hnests, hruns⟩
  · rintro ⟨hpos, hrest, hnests, hruns⟩
    exact ⟨⟨hpos, hnests⟩, hrest, hruns⟩

/-- A character that is neither a letter nor a bracket nor a brace may stand everywhere. -/
theorem wellFormed_plain_cons (hletter : ∀ c : Char, c.isAlpha → x ≠ some c)
    (hbraces : x ≠ some '\x7b' ∧ x ≠ some '\x7d') (hopen : x ≠ some '[') (hclose : x ≠ some ']') :
    WellFormed depth (x :: text) ↔ WellFormed depth text := by
  rw [wellFormed_cons_iff hletter hbraces, nests_cons_of_ne hopen hclose, wellFormed_iff]
  constructor
  · rintro ⟨hnests, hrest, hruns⟩
    exact ⟨hrest, hnests, hruns⟩
  · rintro ⟨hrest, hnests, hruns⟩
    exact ⟨hnests, hrest, hruns⟩

theorem wellFormed_nones_append :
    WellFormed depth (List.replicate count none ++ text) ↔ WellFormed depth text := by
  induction count with
  | zero => rfl
  | succ count ih =>
      rw [List.replicate_succ, List.cons_append, wellFormed_plain_cons (by simp) (by simp) (by simp)
        (by simp), ih]

theorem not_wellFormed_of_brace (hc : c = '\x7b' ∨ c = '\x7d') :
    ¬ WellFormed depth (some c :: text) := by
  intro h
  have hbraces := h.no_braces (some c) List.mem_cons_self
  rcases hc with rfl | rfl
  · exact hbraces.1 rfl
  · exact hbraces.2 rfl

theorem nests_row_append (hletter : c.isAlpha) :
    Nests depth (List.replicate count (some c) ++ text) ↔ Nests depth text := by
  induction count with
  | zero => rfl
  | succ count ih =>
      rw [List.replicate_succ, List.cons_append, nests_cons_of_ne, ih]
      · rintro ⟨⟩
        simp at hletter
      · rintro ⟨⟩
        simp at hletter

/-- The letters at the start of a text are looked at on their own. -/
theorem wellFormed_run_append (hletter : c.isAlpha) (hpos : 0 < count)
    (hends : text.head? ≠ some (some c)) :
    WellFormed depth (List.replicate count (some c) ++ text) ↔
      RunFits c count text ∧ WellFormed depth text := by
  have hbraces : ∀ x ∈ List.replicate count (some c), x ≠ some '\x7b' ∧ x ≠ some '\x7d' := by
    intro x hx
    rw [List.eq_of_mem_replicate hx]
    constructor <;> (rintro ⟨⟩; simp at hletter)
  rw [wellFormed_iff, wellFormed_iff, List.forall_mem_append, nests_row_append hletter,
    runsFit_run_append hletter hpos hends]
  constructor
  · rintro ⟨⟨-, hrest⟩, hnests, hfits, hruns⟩
    exact ⟨hfits, hrest, hnests, hruns⟩
  · rintro ⟨hfits, hrest, hnests, hruns⟩
    exact ⟨⟨hbraces, hrest⟩, hnests, hfits, hruns⟩

/-! ### What stands outside of quotes -/

theorem bare_cons_of_ne {cs : List Char} (hc : c ≠ '\'') :
    bare false (c :: cs) = some c :: bare false cs := by
  simp [bare, hc]

theorem bare_quote_cons {quoted : Bool} {cs : List Char} :
    bare quoted ('\'' :: cs) = none :: bare (!quoted) cs := by
  simp [bare]

theorem head?_bare (cs : List Char) :
    (bare false cs).head? = cs.head?.map fun c => if c = '\'' then none else some c := by
  cases cs with
  | nil => rfl
  | cons c cs =>
      by_cases hc : c = '\'' <;> simp [bare, hc]

/-- A row of a letter stands outside of quotes as it is. -/
theorem bare_row {cs : List Char} (hc : c ≠ '\'') :
    bare false cs = List.replicate (PatternItem.runLength c cs) (some c) ++
      bare false (PatternItem.afterRun c cs) := by
  induction cs with
  | nil => rfl
  | cons d cs ih =>
      by_cases hd : d = c
      · subst hd
        rw [bare_cons_of_ne hc, ih]
        simp [PatternItem.runLength, PatternItem.afterRun, List.replicate_succ]
      · simp [PatternItem.runLength, PatternItem.afterRun, hd]

theorem head?_afterRun (c : Char) (cs : List Char) :
    (PatternItem.afterRun c cs).head? ≠ some c := by
  intro h
  have hne := List.head?_dropWhile_not (· == c) cs
  rw [show cs.dropWhile (· == c) = PatternItem.afterRun c cs from rfl, h] at hne
  simp at hne

theorem ne_of_afterRun_eq_cons {d : Char} {cs ds : List Char}
    (h : PatternItem.afterRun c cs = d :: ds) : d ≠ c := by
  rintro rfl
  exact head?_afterRun d cs (by rw [h, List.head?_cons])

theorem head?_bare_eq_letter_iff {cs : List Char} (hletter : c.isAlpha) :
    (bare false cs).head? = some (some c) ↔ cs.head? = some c := by
  rw [head?_bare, Option.map_eq_some_iff]
  constructor
  · rintro ⟨d, hd, hdc⟩
    split at hdc
    · cases hdc
    · rw [hd, Option.some.inj hdc]
  · intro h
    refine ⟨c, h, if_neg ?_⟩
    rintro rfl
    simp at hletter

/-- Text up to a closing quote stands for nothing, and holds an odd number of apostrophes. -/
theorem bare_quoted {cs rest body : List Char} (h : PatternItem.quoted? cs = some (body, rest)) :
    (∃ k, bare true cs = List.replicate k none ++ bare false rest) ∧
      (Even (cs.count '\'') ↔ ¬ Even (rest.count '\'')) := by
  fun_induction PatternItem.quoted? cs generalizing body with
  | case1 => cases h
  | case2 cs ih =>
      obtain ⟨⟨inner, after⟩, hinner, he⟩ := Option.map_eq_some_iff.1 h
      cases he
      obtain ⟨⟨k, hbare⟩, hcount⟩ := ih hinner
      refine ⟨⟨k + 2, ?_⟩, ?_⟩
      · simp only [bare_quote_cons, Bool.not_true, Bool.not_false, hbare, List.replicate_succ,
          List.cons_append]
      · simpa [List.count_cons_self, Nat.even_add_one] using hcount
  | case3 cs =>
      cases h
      refine ⟨⟨1, bare_quote_cons⟩, ?_⟩
      rw [List.count_cons_self, Nat.even_add_one]
  | case4 c cs _ hc ih =>
      obtain ⟨⟨inner, after⟩, hinner, he⟩ := Option.map_eq_some_iff.1 h
      cases he
      obtain ⟨⟨k, hbare⟩, hcount⟩ := ih hinner
      refine ⟨⟨k + 1, ?_⟩, ?_⟩
      · rw [bare, if_neg hc, hbare]
        rfl
      · rwa [List.count_cons_of_ne hc]

theorem even_count_of_open_quote {cs : List Char} (h : PatternItem.quoted? cs = none) :
    Even (cs.count '\'') := by
  fun_induction PatternItem.quoted? cs with
  | case1 => exact Even.zero
  | case2 cs ih =>
      have hcount := ih (Option.map_eq_none_iff.1 h)
      simpa [List.count_cons_self, Nat.even_add_one] using hcount
  | case3 cs => cases h
  | case4 c cs _ hc ih =>
      rw [List.count_cons_of_ne hc]
      exact ih (Option.map_eq_none_iff.1 h)

/-! ### Patterns that start with a known part -/

section Parts

variable {cs rest body : List Char}

theorem isGrammatical_nil : IsGrammatical depth [] :=
  ⟨Even.zero, wellFormed_nil⟩

theorem count_afterRun (hc : c ≠ '\'') :
    (PatternItem.afterRun c cs).count '\'' = cs.count '\'' := by
  induction cs with
  | nil => rfl
  | cons d cs ih =>
      by_cases hd : d = c
      · rw [hd, List.count_cons_of_ne hc, ← ih]
        simp [PatternItem.afterRun]
      · simp [PatternItem.afterRun, hd]

/-- The rest of a pattern after a run of letters is looked at on its own. -/
theorem isGrammatical_run_cons_iff (hletter : c.isAlpha) :
    IsGrammatical depth (c :: cs) ↔
      RunFits c (PatternItem.runLength c cs + 1) (bare false (PatternItem.afterRun c cs)) ∧
        IsGrammatical depth (PatternItem.afterRun c cs) := by
  have hquote : c ≠ '\'' := by
    rintro rfl
    simp at hletter
  have hcount : (c :: cs).count '\'' = (PatternItem.afterRun c cs).count '\'' := by
    rw [List.count_cons_of_ne hquote, count_afterRun hquote]
  have hrun : WellFormed depth (bare false (c :: cs)) ↔
      RunFits c (PatternItem.runLength c cs + 1) (bare false (PatternItem.afterRun c cs)) ∧
        WellFormed depth (bare false (PatternItem.afterRun c cs)) := by
    rw [bare_cons_of_ne hquote, bare_row hquote, ← List.cons_append, ← List.replicate_succ]
    apply wellFormed_run_append hletter (Nat.succ_pos _)
    rw [Ne, head?_bare_eq_letter_iff hletter]
    exact head?_afterRun c cs
  rw [isGrammatical_iff, isGrammatical_iff, hcount, hrun]
  constructor
  · rintro ⟨hquotes, hfits, hrest⟩
    exact ⟨hfits, hquotes, hrest⟩
  · rintro ⟨hfits, hquotes, hrest⟩
    exact ⟨hquotes, hfits, hrest⟩

/-- A run of a letter that is no pad is written as often as it may be. -/
theorem isGrammatical_letters_cons_iff (hletter : c.isAlpha) (hpad : c ≠ 'p') :
    IsGrammatical depth (c :: cs) ↔ Admits c (PatternItem.runLength c cs + 1) ∧
      IsGrammatical depth (PatternItem.afterRun c cs) := by
  rw [isGrammatical_run_cons_iff hletter, RunFits, if_neg hpad]

theorem isGrammatical_pad_cons_iff : IsGrammatical depth ('p' :: cs) ↔
    (∃ d : Char, d.isAlpha ∧ (PatternItem.afterRun 'p' cs).head? = some d) ∧
      IsGrammatical depth (PatternItem.afterRun 'p' cs) := by
  rw [isGrammatical_run_cons_iff (by decide), RunFits, if_pos rfl]
  apply and_congr_left
  intro _
  apply exists_congr
  intro d
  apply and_congr_right
  intro hd
  exact head?_bare_eq_letter_iff hd

theorem isGrammatical_quoted_cons_iff (h : PatternItem.quoted? cs = some (body, rest)) :
    IsGrammatical depth ('\'' :: cs) ↔ IsGrammatical depth rest := by
  obtain ⟨⟨k, hbare⟩, hcount⟩ := bare_quoted h
  have hquotes : Even (('\'' :: cs).count '\'') ↔ Even (rest.count '\'') := by
    rw [List.count_cons_self, Nat.even_add_one, hcount, not_not]
  have hwell : WellFormed depth (bare false ('\'' :: cs)) ↔ WellFormed depth (bare false rest) := by
    rw [bare_quote_cons, Bool.not_false, hbare, ← List.cons_append, ← List.replicate_succ,
      wellFormed_nones_append]
  rw [isGrammatical_iff, isGrammatical_iff, hquotes, hwell]

theorem not_isGrammatical_of_open_quote (h : PatternItem.quoted? cs = none) :
    ¬ IsGrammatical depth ('\'' :: cs) := by
  rintro ⟨hquotes, -⟩
  rw [List.count_cons_self, Nat.even_add_one] at hquotes
  exact hquotes (even_count_of_open_quote h)

theorem isGrammatical_cons_iff (hc : c ≠ '\'') : IsGrammatical depth (c :: cs) ↔
    Even (cs.count '\'') ∧ WellFormed depth (some c :: bare false cs) := by
  rw [isGrammatical_iff, List.count_cons_of_ne hc, bare_cons_of_ne hc]

theorem isGrammatical_open_cons_iff :
    IsGrammatical depth ('[' :: cs) ↔ IsGrammatical (depth + 1) cs := by
  rw [isGrammatical_cons_iff (by decide), wellFormed_open_cons, isGrammatical_iff]

theorem isGrammatical_close_cons_iff :
    IsGrammatical depth (']' :: cs) ↔ 0 < depth ∧ IsGrammatical (depth - 1) cs := by
  rw [isGrammatical_cons_iff (by decide), wellFormed_close_cons, isGrammatical_iff]
  exact and_left_comm

theorem not_isGrammatical_of_brace (hc : c = '\x7b' ∨ c = '\x7d') :
    ¬ IsGrammatical depth (c :: cs) := by
  intro h
  apply not_wellFormed_of_brace hc
  apply And.right
  apply (isGrammatical_cons_iff ?_).1 h
  rcases hc with rfl | rfl <;> decide

theorem isGrammatical_plain_cons_iff (hletter : ¬ c.isAlpha) (hquote : c ≠ '\'') (hopen : c ≠ '[')
    (hclose : c ≠ ']') (hbrace : ¬ (c = '\x7b' ∨ c = '\x7d')) :
    IsGrammatical depth (c :: cs) ↔ IsGrammatical depth cs := by
  rw [isGrammatical_cons_iff hquote, wellFormed_plain_cons, isGrammatical_iff]
  · rintro d hd ⟨⟩
    exact hletter hd
  · simpa [not_or] using hbrace
  · simpa using hopen
  · simpa using hclose

end Parts

end Pattern

end DateTimeText
