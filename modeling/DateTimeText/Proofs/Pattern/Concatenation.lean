import DateTimeText.Formatter
import DateTimeText.Proofs.Builder.Atomicity
import DateTimeText.Proofs.Builder.Timestamps
import DateTimeText.Proofs.Pattern.Grammar

/-!
# Patterns one after the other

The splitting of a pattern looks ahead: over the rest of a run, over the letters behind a pad, and
at the character behind an apostrophe. So a pattern may be cut where no run and no pair of
apostrophes is cut, and the items of the whole are those of the parts. A builder takes the whole
exactly if it takes the parts one after the other, and with the same outcome, since all that goes
from one item to the next is in the builder.
-/

namespace DateTimeText

/-! ### Doubled apostrophes -/

theorem doubleQuotes_quote_cons (cs : List Char) :
    doubleQuotes ('\'' :: cs) = '\'' :: '\'' :: doubleQuotes cs :=
  if_pos rfl

theorem doubleQuotes_cons_of_ne {c : Char} (hc : c ≠ '\'') (cs : List Char) :
    doubleQuotes (c :: cs) = c :: doubleQuotes cs :=
  if_neg hc

namespace PatternItem

section

variable {c d : Char} {cs text rest : List Char}

theorem quoted?_doubleQuotes (text : List Char) (hends : rest.head? ≠ some '\'') :
    quoted? (doubleQuotes text ++ '\'' :: rest) = some (text, rest) := by
  induction text with
  | nil =>
      cases rest with
      | nil => rfl
      | cons d rest =>
          have hd : d ≠ '\'' := fun h => hends (congrArg some h)
          simp [doubleQuotes, quoted?, hd]
  | cons c text ih =>
      by_cases hc : c = '\''
      · subst hc
        rw [doubleQuotes_quote_cons, List.cons_append, List.cons_append, quoted?, ih, Option.map_some]
      · rw [doubleQuotes_cons_of_ne hc, List.cons_append, quoted?, ih, Option.map_some]
        · simp [hc]
        · simp [hc]

/-- The closing quote is the first apostrophe that is not doubled. -/
theorem quoted?_eq_some_iff : quoted? cs = some (text, rest) ↔
    cs = doubleQuotes text ++ '\'' :: rest ∧ rest.head? ≠ some '\'' := by
  constructor
  · intro h
    fun_induction quoted? cs generalizing text with
    | case1 => cases h
    | case2 cs ih =>
        obtain ⟨⟨inner, after⟩, hinner, he⟩ := Option.map_eq_some_iff.1 h
        cases he
        obtain ⟨rfl, hends⟩ := ih hinner
        exact ⟨by rw [doubleQuotes_quote_cons]; rfl, hends⟩
    | case3 cs hsingle =>
        cases h
        refine ⟨rfl, fun hhead => ?_⟩
        obtain ⟨tail, rfl⟩ := List.head?_eq_some_iff.1 hhead
        exact hsingle tail rfl
    | case4 c cs _ hc ih =>
        obtain ⟨⟨inner, after⟩, hinner, he⟩ := Option.map_eq_some_iff.1 h
        cases he
        obtain ⟨rfl, hends⟩ := ih hinner
        exact ⟨by rw [doubleQuotes_cons_of_ne hc]; rfl, hends⟩
  · rintro ⟨rfl, hends⟩
    exact quoted?_doubleQuotes text hends

/-! ### Single items -/

theorem replicate_runLength_append_afterRun (c : Char) (cs : List Char) :
    List.replicate (runLength c cs) c ++ afterRun c cs = cs := by
  induction cs with
  | nil => rfl
  | cons d cs ih =>
      by_cases hd : d = c
      · subst hd
        simpa [runLength, afterRun, List.replicate_succ] using ih
      · simp [runLength, afterRun, hd]

/-- A text is a row of a character, which may be empty, and a rest that does not go on with it. -/
theorem exists_row (c : Char) (cs : List Char) :
    ∃ count rest, cs = List.replicate count c ++ rest ∧ rest.head? ≠ some c :=
  ⟨runLength c cs, afterRun c cs, (replicate_runLength_append_afterRun c cs).symm,
    Pattern.head?_afterRun c cs⟩

theorem parseFrom_quoted (pattern : List Char) (hends : rest.head? ≠ some '\'') :
    parseFrom pattern ('\'' :: (doubleQuotes text ++ '\'' :: rest)) =
      (parseFrom pattern rest).map (ofQuoted text :: ·) := by
  have hquoted := quoted?_doubleQuotes text hends
  rw [parseFrom, if_neg (by decide), if_neg (by decide), if_pos rfl]
  split
  · next h => rw [hquoted] at h; cases h
  · next h => rw [hquoted] at h; cases h; rfl

theorem parseFrom_pad (pattern : List Char) {width count : Nat} (hletter : d.isAlpha)
    (hpad : d ≠ 'p') (hends : rest.head? ≠ some d) :
    parseFrom pattern ('p' :: (List.replicate width 'p' ++ d :: (List.replicate count d ++ rest))) =
      (parseFrom pattern rest).map (pad (width + 1) :: letters d (count + 1) :: ·) := by
  have hafter : afterRun 'p' (List.replicate width 'p' ++ d :: (List.replicate count d ++ rest)) =
      d :: (List.replicate count d ++ rest) :=
    afterRun_replicate_append (by simpa using hpad)
  have hwidth : runLength 'p' (List.replicate width 'p' ++ d :: (List.replicate count d ++ rest)) =
      width :=
    runLength_replicate_append (by simpa using hpad)
  rw [parseFrom, if_pos rfl]
  split
  · next h => rw [hafter] at h; cases h
  · next h =>
      rw [hafter] at h
      cases h
      rw [if_pos hletter, hwidth, afterRun_replicate_append hends, runLength_replicate_append hends]

end

/-! ### Where a pattern may be cut -/

/-- What ends the first text does not go on in the second: they do not meet in one letter, nor in
two apostrophes. -/
def Parted (p q : List Char) : Prop :=
  ∀ c, p.getLast? = some c → q.head? = some c → ¬ (c.isAlpha ∨ c = '\'')

section

variable {c : Char} {p q rest : List Char}

theorem parted_nil (p : List Char) : Parted p [] :=
  nofun

theorem Parted.of_append (front : List Char) (h : Parted (front ++ p) q) : Parted p q := by
  intro c hlast
  apply h c
  rw [List.getLast?_append, hlast, Option.some_or]

theorem Parted.of_row {count : Nat} (h : Parted (c :: (List.replicate count c ++ rest)) q) :
    Parted (c :: rest) q := by
  apply Parted.of_append (List.replicate count c)
  rwa [List.append_cons, ← List.replicate_succ', List.replicate_succ, List.cons_append]

/-- What comes after a run or a closing quote does not go on with it, also in front of the second
text. -/
theorem Parted.head?_append_ne (h : Parted (c :: rest) q) (hc : c.isAlpha ∨ c = '\'')
    (hends : rest.head? ≠ some c) : (rest ++ q).head? ≠ some c := by
  cases rest with
  | nil =>
      intro hhead
      exact h c rfl hhead hc
  | cons d rest => simpa using hends

theorem map_append_of_ok {parsed joined behind : Except ConfigurationError (List PatternItem)}
    (front : List PatternItem) {items : List PatternItem}
    (hjoined : ∀ tail, parsed = .ok tail → joined = behind.map (tail ++ ·))
    (h : parsed.map (front ++ ·) = .ok items) :
    joined.map (front ++ ·) = behind.map (items ++ ·) := by
  cases parsed with
  | error e => cases h
  | ok tail =>
      cases h
      rw [hjoined tail rfl]
      cases behind with
      | error e => rfl
      | ok last => simp [Except.map]

/-- The items of a pattern are those of its parts. -/
theorem parseFrom_append {whole : List Char} {items : List PatternItem}
    (h : parseFrom whole p = .ok items) (hpq : Parted p q) (other : List Char) :
    parseFrom other (p ++ q) = (parseFrom other q).map (items ++ ·) := by
  -- What is left behind an item ends as the text does, so it is parted from the second text too.
  fun_induction parseFrom whole p generalizing items with
  | case1 =>
      cases h
      rw [List.nil_append]
      cases parseFrom other q <;> rfl
  | case2 cs hafter => cases h
  | case3 cs d ds hafter hlt hletter hle ih =>
      have hpad := Pattern.ne_of_afterRun_eq_cons hafter
      have hrow := replicate_runLength_append_afterRun 'p' cs
      generalize runLength 'p' cs = width at hrow h
      obtain ⟨count, rest, rfl, hends⟩ := exists_row d ds
      rw [hafter] at hrow
      subst hrow
      simp only [afterRun_replicate_append hends, runLength_replicate_append hends] at h ih
      have hrest : Parted (d :: rest) q :=
        (Parted.of_append ('p' :: List.replicate width 'p') hpq).of_row
      have hnext := map_append_of_ok [pad (width + 1), letters d (count + 1)]
        (fun tail htail => ih htail (.of_append [d] hrest)) h
      rw [← hnext]
      simp only [List.cons_append, List.append_assoc]
      exact parseFrom_pad other hletter hpad (hrest.head?_append_ne (.inl hletter) hends)
  | case4 cs d ds hafter hlt hletter => cases h
  | case5 c cs hpad hletter hle ih =>
      obtain ⟨count, rest, rfl, hends⟩ := exists_row c cs
      simp only [afterRun_replicate_append hends, runLength_replicate_append hends] at h ih
      have hrest : Parted (c :: rest) q := hpq.of_row
      have hnext := map_append_of_ok [letters c (count + 1)]
        (fun tail htail => ih htail (.of_append [c] hrest)) h
      rw [← hnext, ← List.cons_append, ← List.replicate_succ, List.append_assoc]
      exact parseFrom_run other hletter hpad (Nat.succ_pos count)
        (hrest.head?_append_ne (.inl hletter) hends)
  | case6 cs hquote => cases h
  | case7 cs text rest hquote hlt hpad hletter ih =>
      obtain ⟨rfl, hends⟩ := quoted?_eq_some_iff.1 hquote
      have hrest : Parted ('\'' :: rest) q := .of_append ('\'' :: doubleQuotes text) hpq
      have hnext := map_append_of_ok [ofQuoted text]
        (fun tail htail => ih htail (.of_append ['\''] hrest)) h
      rw [← hnext, List.cons_append, List.append_assoc, List.cons_append]
      exact parseFrom_quoted other (hrest.head?_append_ne (.inr rfl) hends)
  | case8 cs hpad hletter hquote ih =>
      have hnext := map_append_of_ok [optionalStart]
        (fun tail htail => ih htail (.of_append ['['] hpq)) h
      rw [← hnext, List.cons_append, parseFrom]
      rfl
  | case9 cs hpad hletter hquote hopen ih =>
      have hnext := map_append_of_ok [optionalEnd]
        (fun tail htail => ih htail (.of_append [']'] hpq)) h
      rw [← hnext, List.cons_append, parseFrom]
      rfl
  | case10 c cs hpad hletter hquote hopen hclose hbrace => cases h
  | case11 c cs hpad hletter hquote hopen hclose hbrace ih =>
      have hnext := map_append_of_ok [literal [c]]
        (fun tail htail => ih htail (.of_append [c] hpq)) h
      rw [← hnext, List.cons_append, parseFrom, if_neg hpad, if_neg hletter, if_neg hquote,
        if_neg hopen, if_neg hclose, if_neg hbrace]
      rfl

/-- Whether a text can be split does not depend on the pattern that it ends, which only the error
tells. -/
theorem parseFrom_ok_iff (pattern other : List Char) {items : List PatternItem} :
    parseFrom pattern p = .ok items ↔ parseFrom other p = .ok items := by
  have hof : ∀ {pattern other : List Char}, parseFrom pattern p = .ok items →
      parseFrom other p = .ok items := by
    intro pattern other h
    have hall := parseFrom_append h (parted_nil p) other
    rwa [List.append_nil, parseFrom, Except.map, List.append_nil] at hall
  exact ⟨hof, hof⟩

theorem parseAll_append_iff {items all : List PatternItem} (hp : parseAll p = .ok items)
    (hpq : Parted p q) :
    parseAll (p ++ q) = .ok all ↔ ∃ tail, parseAll q = .ok tail ∧ items ++ tail = all := by
  have hall : parseAll (p ++ q) = (parseFrom (p ++ q) q).map (items ++ ·) :=
    parseFrom_append hp hpq (p ++ q)
  rw [hall, parseAll]
  simp only [parseFrom_ok_iff q (p ++ q)]
  cases parseFrom (p ++ q) q with
  | error e => simp [Except.map]
  | ok tail => simp [Except.map]

end

end PatternItem

/-! ### Builders and drafts -/

/-- What takes items one after the other takes those of a cut pattern part by part. -/
theorem PatternItem.exists_append_iff {State : Type}
    (Takes : List PatternItem → State → State → Prop) {p q : List Char} {items : List PatternItem}
    (hp : parseAll p = .ok items) (hpq : Parted p q)
    (htakes : ∀ front tail before after, Takes (front ++ tail) before after ↔
      ∃ between, Takes front before between ∧ Takes tail between after) (before after : State) :
    (∃ all, parseAll (p ++ q) = .ok all ∧ Takes all before after) ↔
      ∃ between, (∃ front, parseAll p = .ok front ∧ Takes front before between) ∧
        ∃ tail, parseAll q = .ok tail ∧ Takes tail between after := by
  simp only [parseAll_append_iff hp hpq]
  constructor
  · rintro ⟨_, ⟨tail, htail, rfl⟩, hall⟩
    obtain ⟨between, hfront, hrest⟩ := (htakes items tail before after).1 hall
    exact ⟨between, ⟨items, hp, hfront⟩, tail, htail, hrest⟩
  · rintro ⟨between, ⟨front, hfront, hbetween⟩, tail, htail, hrest⟩
    cases hp.symm.trans hfront
    exact ⟨items ++ tail, ⟨tail, htail, rfl⟩,
      (htakes items tail before after).2 ⟨between, hbetween, hrest⟩⟩

theorem except_bind_eq_ok_iff {ε α β : Type} {first : Except ε α} {next : α → Except ε β} {b : β} :
    first >>= next = .ok b ↔ ∃ a, first = .ok a ∧ next a = .ok b := by
  cases first with
  | error e => exact iff_of_false nofun (by rintro ⟨a, ⟨⟩, -⟩)
  | ok a => exact ⟨fun h => ⟨a, rfl, h⟩, by rintro ⟨_, ⟨⟩, h⟩; exact h⟩

namespace Draft

theorem run_bind_eq_ok_iff {α β : Type} {first : Edit α} {next : α → Edit β} {d after : Draft}
    {b : β} : (first >>= next).run d = .ok b after ↔
      ∃ a between, first.run d = .ok a between ∧ (next a).run between = .ok b after := by
  cases hfirst : first.run d with
  | error e between =>
      rw [run_bind_of_error hfirst]
      exact iff_of_false nofun (by rintro ⟨a, _, ⟨⟩, -⟩)
  | ok a between =>
      rw [run_bind_of_ok hfirst]
      exact ⟨fun h => ⟨a, between, rfl, h⟩, by rintro ⟨_, _, ⟨⟩, h⟩; exact h⟩

theorem run_appendPattern_eq_ok_iff {d after : Draft} {pattern : List Char} :
    (appendPattern pattern).run d = .ok () after ↔
      ∃ items, PatternItem.parseAll pattern = .ok items ∧
        (items.forM applyItem).run d = .ok () after := by
  rw [appendPattern]
  cases PatternItem.parseAll pattern with
  | error e => exact iff_of_false nofun (by rintro ⟨items, ⟨⟩, -⟩)
  | ok items =>
      have hrun : (check (.ok items) >>= fun items => onCopy (items.forM applyItem)).run d =
          (onCopy (items.forM applyItem)).run d := rfl
      rw [hrun, run_onCopy]
      simp only [Except.ok.injEq, exists_eq_left']
      cases (items.forM applyItem).run d with
      | error e between => exact iff_of_false nofun nofun
      | ok _ between => rfl

end Draft

/-- Whatever a builder was made of before, it takes a pattern exactly if it takes the two parts that
the pattern is cut into one after the other, and then it is the same builder: with the same anchor,
the same reserved digits and the same open sections. The same is true of drafts. -/
theorem Builder.appendPattern_append {p q : List Char} {items : List PatternItem}
    (hp : PatternItem.parseAll p = .ok items) (hpq : PatternItem.Parted p q) :
    (∀ b after : Builder, b.appendPattern (p ++ q) = .ok after ↔
      ∃ between, b.appendPattern p = .ok between ∧ between.appendPattern q = .ok after) ∧
    ∀ d after : Draft, (Draft.appendPattern (p ++ q)).run d = .ok () after ↔
      ∃ between, (Draft.appendPattern p).run d = .ok () between ∧
        (Draft.appendPattern q).run between = .ok () after := by
  constructor
  · intro b after
    simp only [appendPattern, except_bind_eq_ok_iff]
    refine PatternItem.exists_append_iff
      (fun items before after => items.foldlM applyItem before = .ok after) hp hpq ?_ b after
    intro front tail before after
    rw [List.foldlM_append, except_bind_eq_ok_iff]
  · intro d after
    simp only [Draft.run_appendPattern_eq_ok_iff]
    refine PatternItem.exists_append_iff
      (fun items before after => (items.forM Draft.applyItem).run before = .ok () after)
      hp hpq ?_ d after
    intro front tail before after
    rw [List.forM_eq_forM, List.forM_append, Draft.run_bind_eq_ok_iff]
    constructor
    · rintro ⟨_, between, hfront, htail⟩
      exact ⟨between, hfront, htail⟩
    · rintro ⟨between, hfront, htail⟩
      exact ⟨(), between, hfront, htail⟩

/-- The section that the first part opens is still open for the second, whose month takes two digits
from the year. -/
theorem Builder.appendPattern_append_section :
    ∃ between after : Builder, new.appendPattern "[yyyy".toList = .ok between ∧
      between.appendPattern "MM]".toList = .ok after ∧
      new.appendPattern ("[yyyy".toList ++ "MM]".toList) = .ok after ∧
      after.nodes = [.group [.numeral ((Numeral.plain .year 4 maxDigits .exceedsPad).reserve 2),
        .numeral (Numeral.plain .monthOfYear 2 2 .notNegative).asFixed] true] := by
  have hp : PatternItem.parseAll "[yyyy".toList = .ok [.optionalStart, .letters 'y' 4] := by
    simp [PatternItem.parseAll, PatternItem.parseFrom, PatternItem.afterRun, PatternItem.runLength,
      Except.map]
  have hq : PatternItem.parseAll "MM]".toList = .ok [.letters 'M' 2, .optionalEnd] := by
    simp [PatternItem.parseAll, PatternItem.parseFrom, PatternItem.afterRun, PatternItem.runLength,
      Except.map]
  have hpq : PatternItem.Parted "[yyyy".toList "MM]".toList := by
    rintro c ⟨⟩ hhead
    exact absurd hhead (by decide)
  obtain ⟨between, hbetween, after, hafter, hnodes⟩ : ∃ between : Builder,
      new.appendPattern "[yyyy".toList = .ok between ∧ ∃ after : Builder,
        between.appendPattern "MM]".toList = .ok after ∧
        after.nodes = [.group [.numeral ((Numeral.plain .year 4 maxDigits .exceedsPad).reserve 2),
          .numeral (Numeral.plain .monthOfYear 2 2 .notNegative).asFixed] true] := by
    simp only [appendPattern, hp, hq]
    exact ⟨_, rfl, _, rfl, rfl⟩
  exact ⟨between, after, hbetween, hafter,
    ((appendPattern_append hp hpq).1 new after).2 ⟨between, hbetween, hafter⟩, hnodes⟩

end DateTimeText
