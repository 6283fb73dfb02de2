import DateTimeText.Proofs.Node.Canonical

/-!
# Numbers in lenient mode

Lenient mode reads numbers and literals that strict mode reads, and reads them alike. For a number
alone this is plain: leniency drops conditions, on the sign and on the number of digits. But a
number that leaves digits to its neighbours takes its least width even where their digits are short,
and this least width is one in lenient mode. So the two modes part where the digits run out, and
they do not run out in a row that is read: the numbers joined to an anchor have fixed widths, and
each of them has read its digits.
-/

namespace DateTimeText

namespace Symbols

/-- A text that starts with `k` digits. -/
def HasDigits (s : Symbols) (k : Nat) (text : List Char) : Prop :=
  (s.digitRun k text).length = k

variable {s : Symbols} {text : List Char}

theorem hasDigits_zero (s : Symbols) (text : List Char) : s.HasDigits 0 text := rfl

theorem not_hasDigits_nil (s : Symbols) (k : Nat) : ¬ s.HasDigits (k + 1) [] := nofun

theorem hasDigits_cons_iff {k : Nat} {c : Char} :
    s.HasDigits (k + 1) (c :: text) ↔ (s.digit? c).isSome ∧ s.HasDigits k text := by
  unfold HasDigits
  rw [digitRun]
  cases s.digit? c with
  | none => simp
  | some d => simp

/-- The digits of a text are there if as many are found up to a greater limit. -/
theorem hasDigits_iff_le_length {k limit : Nat} (h : k ≤ limit) :
    s.HasDigits k text ↔ k ≤ (s.digitRun limit text).length := by
  induction k generalizing limit text with
  | zero => exact iff_of_true (hasDigits_zero s text) (Nat.zero_le _)
  | succ k ih =>
      obtain ⟨limit, rfl⟩ := Nat.exists_eq_add_of_le' (Nat.one_le_of_lt h)
      cases text with
      | nil => exact iff_of_false (not_hasDigits_nil s k) nofun
      | cons c text =>
          rw [hasDigits_cons_iff, digitRun, ih (Nat.le_of_succ_le_succ h)]
          cases s.digit? c with
          | none => simp
          | some d => simp

theorem hasDigits_add {j k : Nat} (hj : s.HasDigits j text) (hk : s.HasDigits k (text.drop j)) :
    s.HasDigits (j + k) text := by
  induction j generalizing text with
  | zero => rwa [Nat.zero_add]
  | succ j ih =>
      cases text with
      | nil => exact absurd hj (not_hasDigits_nil s j)
      | cons c text =>
          rw [hasDigits_cons_iff] at hj
          rw [Nat.succ_add, hasDigits_cons_iff]
          exact ⟨hj.1, ih hj.2 hk⟩

end Symbols

theorem SignStyle.admits_of_strict {style : SignStyle} {positive fixedWidth : Bool}
    (h : style.admits positive true fixedWidth = true) (strict : Bool) :
    style.admits positive strict fixedWidth = true := by
  cases style <;> cases strict <;> simp_all [admits]

namespace Numeral

variable {n : Numeral} {s : Symbols} {sign : Option Sign} {text start body : List Char}
  {r : Reading}

/-- Digits that are read in strict mode are read alike in lenient mode, if there are enough of them
for the least width and for all that are left to the numbers that follow. -/
theorem readDigits_of_strict (hn : n.WellSized)
    (hdigits : s.HasDigits (n.minWidth + n.reserved) body)
    (h : n.readDigits s true sign start body = .ok r) (strict : Bool) :
    n.readDigits s strict sign start body = .ok r := by
  have hsizes := hn.minWidth_le_maxWidth
  have hone := hn.one_le_minWidth
  rw [Symbols.hasDigits_iff_le_length (Nat.add_le_add_right hsizes _)] at hdigits
  unfold readDigits at h ⊢
  dsimp only at h ⊢
  generalize s.digitRun (n.maxWidth + n.reserved) body = run at h hdigits ⊢
  obtain ⟨least, hleast⟩ : ∃ least, (if strict || n.keepsWidth then n.minWidth else 1) = least :=
    ⟨_, rfl⟩
  have hle : least ≤ n.minWidth := by
    rw [← hleast]
    split <;> omega
  have hcount : max least (run.length - n.reserved) = max n.minWidth (run.length - n.reserved) := by
    omega
  have hpadded : (strict && n.sign == .exceedsPad) = true → (n.sign == .exceedsPad) = true :=
    fun hpad => (Bool.and_eq_true_iff.1 hpad).2
  simp only [Bool.true_or, if_true, Bool.true_and, and_true] at h
  rw [if_neg (by omega)] at h
  rw [hleast, hcount, if_neg (by omega)]
  generalize max n.minWidth (run.length - n.reserved) = count at h ⊢
  generalize ofDigits (run.take count) = total at h ⊢
  -- The same is read in both modes. Strict mode only has more reasons to refuse it.
  by_cases hzero : sign = some .negative ∧ (total : Int) = 0
  · rw [if_pos hzero] at h
    cases h
  rw [if_neg hzero] at h
  by_cases hplus : sign = some .positive ∧ (n.sign == .exceedsPad) = true ∧ count ≤ n.minWidth
  · rw [if_pos hplus] at h
    cases h
  rw [if_neg hplus] at h
  by_cases hbare : sign = none ∧ (n.sign == .exceedsPad) = true ∧ n.minWidth < count
  · rw [if_pos hbare] at h
    cases h
  rw [if_neg hbare] at h
  rwa [if_neg fun hlenient => hzero ⟨hlenient.1, hlenient.2.1⟩,
    if_neg fun hlenient => hplus ⟨hlenient.1, hpadded hlenient.2.1, hlenient.2.2⟩,
    if_neg fun hlenient => hbare ⟨hlenient.1, hpadded hlenient.2.1, hlenient.2.2⟩]

/-- A number that is read in strict mode in front of the digits that it leaves has had enough of
them: it takes none that belong to those that follow. -/
theorem hasDigits_of_readDigits (hn : n.WellSized)
    (hwidth : n.minWidth < maxDigits ∨ n.reserved = 0)
    (h : n.readDigits s true sign start body = .ok r) (hrest : s.HasDigits n.reserved r.rest) :
    s.HasDigits (n.minWidth + n.reserved) body := by
  have hsizes := hn.minWidth_le_maxWidth
  obtain ⟨run, hrun⟩ : ∃ run, s.digitRun (n.maxWidth + n.reserved) body = run := ⟨_, rfl⟩
  obtain ⟨hlong, -, hr⟩ := (readDigits_eq_ok_iff hrun rfl).1 h
  have hleast : s.HasDigits n.minWidth body := by
    rwa [Symbols.hasDigits_iff_le_length (Nat.le_add_right_of_le hsizes), hrun]
  rcases hwidth with hwidth | hzero
  · by_cases hroom : n.minWidth + n.reserved ≤ run.length
    · rwa [Symbols.hasDigits_iff_le_length (Nat.add_le_add_right hsizes _), hrun]
    · -- Otherwise it takes its least width, and the digits that it leaves start behind it.
      have hcount : max n.minWidth (run.length - n.reserved) = n.minWidth := by omega
      have hlen : (run.take n.minWidth).length = n.minWidth := List.length_take_of_le hlong
      have hten : ∀ d ∈ run.take n.minWidth, d < 10 := fun d hd =>
        (s.digitRun_spec (n.maxWidth + n.reserved) body).2.1 d (hrun ▸ List.mem_of_mem_take hd)
      rw [hcount, fitting_of_length_lt hten (hlen.trans_lt hwidth), hlen] at hr
      rw [hr] at hrest
      exact Symbols.hasDigits_add hleast hrest
  · rwa [hzero, Nat.add_zero]

/-- A number that is read in strict mode, in front of the digits that it leaves, is read alike in
lenient mode. -/
theorem read_of_strict (hn : n.WellSized) (hwidth : n.minWidth < maxDigits ∨ n.reserved = 0)
    (h : n.read s true text = .ok r) (hrest : s.HasDigits n.reserved r.rest) (strict : Bool) :
    n.read s strict text = .ok r := by
  have hdigits : ∀ {sign : Option Sign} {start body : List Char},
      n.readDigits s true sign start body = .ok r → n.readDigits s strict sign start body = .ok r :=
    fun hread =>
      readDigits_of_strict hn (hasDigits_of_readDigits hn hwidth hread hrest) hread strict
  cases text with
  | nil => cases h
  | cons c rest =>
      simp only [read] at h ⊢
      split_ifs at h with hpositive hadmits hnegative hadmits halways
      · rw [if_pos hpositive, if_pos (SignStyle.admits_of_strict hadmits strict), hdigits h]
      · rw [if_neg hpositive, if_pos hnegative, if_pos (SignStyle.admits_of_strict hadmits strict),
          hdigits h]
      · rw [if_neg hpositive, if_neg hnegative,
          if_neg fun hlenient => halways ⟨hlenient.1, trivial⟩, hdigits h]

/-- A number of a fixed width takes exactly its digits. -/
theorem HasWidth.hasDigits_of_read {width : Nat} (hn : n.HasWidth width)
    (h : n.read s true text = .ok r) : s.HasDigits width text ∧ r.rest = text.drop width := by
  obtain ⟨hlen, hr⟩ := hn.digitRun_of_readDigits (readDigits_of_read hn.sign_eq h)
  exact ⟨hlen, congrArg Reading.rest hr⟩

end Numeral

/-- Literals are read alike in strict and in lenient mode. -/
theorem Mode.strip?_lenient (mode : Mode) (expected text : List Char) :
    (ModeChange.lenient.apply mode).strip? expected text = mode.strip? expected text := by
  induction expected generalizing text with
  | nil => rw [strip?, strip?]
  | cons e expected ih =>
      cases text with
      | nil => rw [strip?, strip?]
      | cons c text =>
          rw [strip?, strip?, ih]
          rfl

theorem Leaf.read_literal_lenient (st : Settings) (mode : Mode) (chars text : List Char) :
    Leaf.read st (ModeChange.lenient.apply mode) text (.literal chars) =
      Leaf.read st mode text (.literal chars) := by
  rw [Leaf.read, Leaf.read, readLiteral, readLiteral, Mode.strip?_lenient]

namespace Place

variable {place : Place} {n : Numeral} {s : Symbols} {text : List Char} {r : Reading}

theorem hasWidth_put (hn : n.StandsAs .joined) (hwidth : n.minWidth < maxDigits)
    (anchored : Bool) (width : Nat) : (joined.put anchored width n).HasWidth n.minWidth := by
  obtain ⟨a, ha, hreserved⟩ := put_eq hn anchored width
  refine ⟨hn.wellSized.one_le_minWidth, Nat.le_of_lt_succ hwidth, ?_, ?_, ?_, hreserved⟩
  · rw [ha]
  · rw [ha]
    exact (hn.width_eq nofun).symm
  · rw [ha]
    exact hn.sign_eq rfl

/-- A number in its place is read alike in lenient mode, if the digits that it leaves follow. -/
theorem read_put_of_strict (hn : n.StandsAs place)
    (hwidth : place ≠ .apart → n.minWidth < maxDigits) {anchored : Bool} {width : Nat}
    (h : (place.put anchored width n).read s true text = .ok r)
    (hrest : s.HasDigits width r.rest) (strict : Bool) :
    (place.put anchored width n).read s strict text = .ok r := by
  obtain ⟨a, ha, hreserved⟩ := put_eq hn anchored width
  refine Numeral.read_of_strict (wellSized_put hn anchored width) ?_ h ?_ strict
  · by_cases hplace : place = .anchor
    · left
      rw [ha]
      exact hwidth (hplace ▸ nofun)
    · right
      rw [hreserved, if_neg hplace]
  · rw [hreserved]
    split
    · exact hrest
    · exact Symbols.hasDigits_zero _ _

end Place

namespace RowPart

/-- A part that is no number of nineteen digits, or one that neither leaves digits nor has any left
to it. -/
def Narrow : RowPart → Prop
  | number place n => place ≠ .apart → n.minWidth < maxDigits
  | literal _ _ => True

variable {st : Settings} {expand : Node → Mode → Components → List Char → ReadResult}
  {parts : List RowPart} {mode after : Mode} {v w : Components} {text rest : List Char}

/-- The digits that an anchor leaves are there, if the numbers that are joined to it are read. -/
theorem hasDigits_of_readAllWith {anchored : Bool} (hvalid : ∀ part ∈ parts, part.Valid)
    (hnarrow : ∀ part ∈ parts, part.Narrow) (hmode : mode.strict = true)
    (h : Node.readAllWith expand st ((leaves anchored parts).map .leaf) mode v text =
      (after, .ok (w, rest))) : st.symbols.HasDigits (joinedWidth parts) text := by
  induction parts generalizing anchored v text with
  | nil => exact Symbols.hasDigits_zero _ _
  | cons part parts ih =>
      rw [List.forall_mem_cons] at hvalid hnarrow
      cases part with
      | literal c cs => exact Symbols.hasDigits_zero _ _
      | number place n =>
          cases place with
          | anchor => exact Symbols.hasDigits_zero _ _
          | joined =>
              rw [leaves, List.map_cons] at h
              obtain ⟨r, u, middle, hread, hadd, hrest⟩ := Node.readAllWith_leaf_eq_ok h
              obtain ⟨_, ⟨⟩, rfl, -⟩ := Components.addResult_eq_ok hadd
              rw [Leaf.read, hmode] at hread
              have hwidth := Place.hasWidth_put hvalid.1 (hnarrow.1 (by decide)) anchored
                (joinedWidth parts)
              obtain ⟨hdigits, hdrop⟩ := hwidth.hasDigits_of_read hread
              rw [hdrop] at hrest
              exact Symbols.hasDigits_add hdigits (ih hvalid.2 hnarrow.2 hrest)
          | apart => exact Symbols.hasDigits_zero _ _

/-- A row of numbers and literals that is read in strict mode is read alike in lenient mode.
Induction on the parts: an anchor is read alike because the numbers joined to it are read. -/
theorem readAllWith_lenient {anchored : Bool} (hvalid : ∀ part ∈ parts, part.Valid)
    (hnarrow : ∀ part ∈ parts, part.Narrow) (hmode : mode.strict = true)
    (h : Node.readAllWith expand st ((leaves anchored parts).map .leaf) mode v text =
      (after, .ok (w, rest))) :
    Node.readAllWith expand st ((leaves anchored parts).map .leaf) (ModeChange.lenient.apply mode) v
      text = (ModeChange.lenient.apply mode, .ok (w, rest)) := by
  induction parts generalizing anchored v text with
  | nil =>
      rw [leaves, List.map_nil, Node.readAllWith] at h ⊢
      cases h
      rfl
  | cons part parts ih =>
      rw [List.forall_mem_cons] at hvalid hnarrow
      cases part with
      | literal c cs =>
          rw [leaves, List.map_cons] at h ⊢
          obtain ⟨r, u, middle, hread, hadd, hrest⟩ := Node.readAllWith_leaf_eq_ok h
          rw [← Leaf.read_literal_lenient] at hread
          rw [Node.readAllWith_leaf_cons hread hadd, ih hvalid.2 hnarrow.2 hrest]
      | number place n =>
          rw [leaves, List.map_cons] at h ⊢
          obtain ⟨r, u, middle, hread, hadd, hrest⟩ := Node.readAllWith_leaf_eq_ok h
          have hdigits := hasDigits_of_readAllWith hvalid.2 hnarrow.2 hmode hrest
          obtain ⟨_, ⟨⟩, rfl, -⟩ := Components.addResult_eq_ok hadd
          rw [Leaf.read, hmode] at hread
          have hlenient : Leaf.read st (ModeChange.lenient.apply mode) text
              (.numeral (place.put anchored (joinedWidth parts) n)) = .ok r :=
            Place.read_put_of_strict hvalid.1 hnarrow.1 hread hdigits false
          rw [Node.readAllWith_leaf_cons hlenient hadd, ih hvalid.2 hnarrow.2 hrest]

end RowPart

end DateTimeText
