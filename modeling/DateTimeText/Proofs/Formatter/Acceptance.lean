import DateTimeText.Formatter
import DateTimeText.Proofs.Builder.Letters

/-!
# The texts that are patterns

A builder takes a text item by item. Each item settles what the grammar demands of the part that it
is read from, and leaves the rest of the text to a builder with as many open sections as the
grammar counts.
-/

namespace DateTimeText

namespace Builder

/-- A text could be split into items, and a builder takes all of them. -/
def Takes (b : Builder) (items : Except ConfigurationError (List PatternItem)) : Prop :=
  ∃ after, (items >>= fun list => list.foldlM applyItem b) = .ok after

def depth (b : Builder) : Nat :=
  b.enclosing.length

variable {b : Builder} {items : Except ConfigurationError (List PatternItem)}

theorem depth_of_appendLetters {after : Builder} {letter : Char} {count : Nat}
    (h : b.appendLetters letter count = .ok after) : after.depth = b.depth := by
  have hgrows : b.Grows (fun _ => False) after := .of_appendLetters h
  rw [depth, hgrows.enclosing_eq, depth]

theorem not_takes_error {e : ConfigurationError} : ¬ b.Takes (.error e) := by
  rintro ⟨after, ⟨⟩⟩

theorem takes_cons_iff {item : PatternItem} :
    b.Takes (items.map (item :: ·)) ↔ ∃ next, b.applyItem item = .ok next ∧ next.Takes items := by
  cases items with
  | error e =>
      refine iff_of_false not_takes_error ?_
      rintro ⟨next, -, h⟩
      exact not_takes_error h
  | ok list =>
      constructor
      · rintro ⟨after, h⟩
        change (item :: list).foldlM applyItem b = .ok after at h
        rw [List.foldlM_cons] at h
        cases hitem : b.applyItem item with
        | error e =>
            rw [hitem] at h
            cases h
        | ok next =>
            rw [hitem] at h
            exact ⟨next, rfl, after, h⟩
      · rintro ⟨next, hitem, after, h⟩
        refine ⟨after, ?_⟩
        change (item :: list).foldlM applyItem b = .ok after
        rw [List.foldlM_cons, hitem]
        exact h

/-- A builder takes the items exactly if the number of its open sections has a property. -/
def TakenAt (items : Except ConfigurationError (List PatternItem)) (admitted : Nat → Prop) : Prop :=
  ∀ b : Builder, b.Takes items ↔ admitted b.depth

namespace TakenAt

variable {admitted : Nat → Prop}

theorem nil (h : ∀ depth, admitted depth) : TakenAt (.ok []) admitted := by
  intro b
  exact iff_of_true ⟨b, rfl⟩ (h b.depth)

theorem error {e : ConfigurationError} (h : ∀ depth, ¬ admitted depth) :
    TakenAt (.error e) admitted := by
  intro b
  exact iff_of_false not_takes_error (h b.depth)

theorem letters (h : TakenAt items admitted) {letter : Char} {count : Nat} (hpos : 0 < count) :
    TakenAt (items.map (.letters letter count :: ·)) fun depth =>
      Pattern.Admits letter count ∧ admitted depth := by
  intro b
  rw [takes_cons_iff, ← exists_appendLetters_iff hpos]
  constructor
  · rintro ⟨next, hnext, htakes⟩
    refine ⟨⟨next, hnext⟩, ?_⟩
    rw [← depth_of_appendLetters hnext]
    exact (h next).1 htakes
  · rintro ⟨⟨next, hnext⟩, hrest⟩
    refine ⟨next, hnext, (h next).2 ?_⟩
    rwa [depth_of_appendLetters hnext]

theorem pad (h : TakenAt items admitted) {width : Nat} (hpos : 0 < width) :
    TakenAt (items.map (.pad width :: ·)) admitted := by
  intro b
  have hpad : b.applyItem (.pad width) =
      .ok (b.mapActive fun sc => ⟨sc.nodes, none, some (width, ' ')⟩) :=
    if_neg (Nat.not_lt.2 hpos)
  rw [takes_cons_iff]
  constructor
  · rintro ⟨next, hnext, htakes⟩
    rw [hpad] at hnext
    cases hnext
    exact (h (b.mapActive _)).1 htakes
  · intro hrest
    exact ⟨_, hpad, (h (b.mapActive _)).2 hrest⟩

theorem literal (h : TakenAt items admitted) (text : List Char) :
    TakenAt (items.map (.literal text :: ·)) admitted := by
  intro b
  have hdepth : (b.appendLiteral text).depth = b.depth := by
    unfold appendLiteral
    split <;> rfl
  rw [takes_cons_iff, ← hdepth]
  constructor
  · rintro ⟨next, ⟨⟩, htakes⟩
    exact (h _).1 htakes
  · intro hrest
    exact ⟨_, rfl, (h _).2 hrest⟩

theorem optionalStart (h : TakenAt items admitted) :
    TakenAt (items.map (.optionalStart :: ·)) fun depth => admitted (depth + 1) := by
  intro b
  rw [takes_cons_iff]
  constructor
  · rintro ⟨next, ⟨⟩, htakes⟩
    exact (h _).1 htakes
  · intro hrest
    exact ⟨_, rfl, (h _).2 hrest⟩

theorem optionalEnd (h : TakenAt items admitted) :
    TakenAt (items.map (.optionalEnd :: ·)) fun depth => 0 < depth ∧ admitted (depth - 1) := by
  intro b
  rw [takes_cons_iff]
  obtain ⟨active, enclosing, texts⟩ := b
  cases enclosing with
  | nil =>
      refine iff_of_false ?_ ?_
      · rintro ⟨next, ⟨⟩, -⟩
      · rintro ⟨⟨⟩, -⟩
  | cons outer enclosing =>
      constructor
      · rintro ⟨next, ⟨⟩, htakes⟩
        exact ⟨Nat.succ_pos _, (h _).1 htakes⟩
      · rintro ⟨-, hrest⟩
        exact ⟨_, rfl, (h _).2 hrest⟩

end TakenAt

/-- A builder takes a text exactly if the text is a pattern inside of its open sections. -/
theorem takenAt_parseFrom (pattern cs : List Char) :
    TakenAt (PatternItem.parseFrom pattern cs) fun depth => Pattern.IsGrammatical depth cs := by
  fun_induction PatternItem.parseFrom pattern cs with
  | case1 => exact .nil fun depth => Pattern.isGrammatical_nil
  | case2 cs hafter =>
      apply TakenAt.error
      intro depth h
      obtain ⟨⟨d, -, hd⟩, -⟩ := Pattern.isGrammatical_pad_cons_iff.1 h
      rw [hafter] at hd
      cases hd
  | case3 cs d ds hafter hlt hletter hle ih =>
      have hpad := Pattern.ne_of_afterRun_eq_cons hafter
      have hhead : ∃ e : Char, e.isAlpha ∧ (d :: ds).head? = some e := ⟨d, hletter, rfl⟩
      simp only [Pattern.isGrammatical_pad_cons_iff, hafter, hhead, true_and,
        Pattern.isGrammatical_letters_cons_iff hletter hpad]
      have hmap : ∀ parsed : Except ConfigurationError (List PatternItem),
          parsed.map (fun items => .pad (PatternItem.runLength 'p' cs + 1) ::
            .letters d (PatternItem.runLength d ds + 1) :: items) =
          (parsed.map (.letters d (PatternItem.runLength d ds + 1) :: ·)).map
            (.pad (PatternItem.runLength 'p' cs + 1) :: ·) := by
        intro parsed
        cases parsed <;> rfl
      rw [hmap]
      exact (ih.letters (Nat.succ_pos _)).pad (Nat.succ_pos _)
  | case4 cs d ds hafter hlt hletter =>
      apply TakenAt.error
      intro depth h
      obtain ⟨⟨e, he, hd⟩, -⟩ := Pattern.isGrammatical_pad_cons_iff.1 h
      rw [hafter, List.head?_cons] at hd
      cases hd
      exact hletter he
  | case5 c cs hpad hletter hle ih =>
      simp only [Pattern.isGrammatical_letters_cons_iff hletter hpad]
      exact ih.letters (Nat.succ_pos _)
  | case6 cs hquote =>
      exact .error fun depth => Pattern.not_isGrammatical_of_open_quote hquote
  | case7 cs text rest hquote hlt hpad hletter ih =>
      simp only [Pattern.isGrammatical_quoted_cons_iff hquote]
      exact ih.literal _
  | case8 cs hpad hletter hquote ih =>
      simp only [Pattern.isGrammatical_open_cons_iff]
      exact ih.optionalStart
  | case9 cs hpad hletter hquote hopen ih =>
      simp only [Pattern.isGrammatical_close_cons_iff]
      exact ih.optionalEnd
  | case10 c cs hpad hletter hquote hopen hclose hbrace =>
      exact .error fun depth => Pattern.not_isGrammatical_of_brace hbrace
  | case11 c cs hpad hletter hquote hopen hclose hbrace ih =>
      simp only [Pattern.isGrammatical_plain_cons_iff hletter hquote hopen hclose hbrace]
      exact ih.literal [c]

theorem exists_appendPattern_iff {pattern : List Char} :
    (∃ after, b.appendPattern pattern = .ok after) ↔ Pattern.IsGrammatical b.depth pattern :=
  takenAt_parseFrom pattern pattern b

end Builder

/-- The texts that formatters are made of are those of the grammar, and every other text is
refused. -/
theorem Formatter.ofPattern_ok_iff_isGrammatical (pattern : List Char) :
    ((∃ f, Formatter.ofPattern pattern = .ok f) ↔ Pattern.IsGrammatical 0 pattern) ∧
      (¬ Pattern.IsGrammatical 0 pattern →
        ∃ e : ConfigurationError, Formatter.ofPattern pattern = .error e) := by
  have hgrammar : (∃ after, Builder.new.appendPattern pattern = .ok after) ↔
      Pattern.IsGrammatical 0 pattern := Builder.exists_appendPattern_iff
  rw [← hgrammar, Formatter.ofPattern, Formatter.ofPatternWithLocale]
  cases Builder.new.appendPattern pattern with
  | error e =>
      refine ⟨iff_of_false ?_ ?_, fun _ => ⟨e, rfl⟩⟩
      · rintro ⟨f, ⟨⟩⟩
      · rintro ⟨after, ⟨⟩⟩
  | ok after =>
      refine ⟨iff_of_true ⟨_, rfl⟩ ⟨after, rfl⟩, fun h => ?_⟩
      exact absurd ⟨after, rfl⟩ h

end DateTimeText
