import DateTimeText.Proofs.Node.Window
import Mathlib.Tactic.SplitIfs

/-!
# Numbers written and read back

A number is written as a sign, if its style asks for one, and digits. In strict mode it is read from
a sign that its style calls for and from the digits that it does not leave for the numbers after it.
This gives the value back if the digits that follow are those that the number leaves, and no more.
-/

namespace DateTimeText

namespace SignStyle

/-- The signs that may stand in front of a number in strict mode. -/
def signs : SignStyle → List (Option Numeral.Sign)
  | normal => [none, some .negative]
  | always => [some .positive, some .negative]
  | never => [none]
  | notNegative => [none]
  | exceedsPad => [none, some .positive, some .negative]

variable {style : SignStyle} {fixedWidth : Bool}

theorem positive_mem_signs :
    some .positive ∈ style.signs ↔ style.admits true true fixedWidth = true := by
  cases style <;> simp [signs, admits]

theorem negative_mem_signs :
    some .negative ∈ style.signs ↔ style.admits false true fixedWidth = true := by
  cases style <;> simp [signs, admits]

theorem none_mem_signs : none ∈ style.signs ↔ style ≠ .always := by
  cases style <;> simp [signs]

end SignStyle

namespace Numeral

variable {n : Numeral} {s : Symbols} {value : Int}

/-- Widths that a builder admits. -/
structure WellSized (n : Numeral) : Prop where
  one_le_minWidth : 1 ≤ n.minWidth
  minWidth_le_maxWidth : n.minWidth ≤ n.maxWidth
  maxWidth_le : n.maxWidth ≤ maxDigits

/-- A value of 64 bits of which nothing is lost when it is written: it has no sign if the style has
none, and it lies in the window if there is one, which starts above zero. -/
structure Recovers (n : Numeral) (value : Int) : Prop where
  fits : FitsInt64 value
  nonneg_of_never : n.sign = .never → 0 ≤ value
  mem_window : ∀ w, n.window = some w → 0 < w.base ∧ w.base ≤ value ∧ value < w.base + w.span

theorem Recovers.plain {f : Field} {minWidth maxWidth : Nat} {sign : SignStyle}
    (hfits : FitsInt64 value) (hsign : sign ≠ .never) :
    (Numeral.plain f minWidth maxWidth sign).Recovers value where
  fits := hfits
  nonneg_of_never := fun h => absurd h hsign
  mem_window := by
    intro w hw
    cases hw

/-- The digits that follow are those that a number leaves: its own number is fixed, or there are
exactly as many as it reserves. -/
def Leaves (n : Numeral) (s : Symbols) (rest : List Char) : Prop :=
  n.minWidth = n.maxWidth ∧ n.reserved = 0 ∨
    ∀ limit, n.reserved ≤ limit → (s.digitRun limit rest).length = n.reserved

def Sign.char (s : Symbols) : Sign → Char
  | positive => s.positive
  | negative => s.negative

def writtenSign (n : Numeral) (v : Int) : Option Sign :=
  if v < 0 then if n.sign = .never then none else some .negative
  else
    match n.sign with
    | .always => some .positive
    | .exceedsPad =>
      if n.minWidth < maxDigits ∧ tenPow n.minWidth ≤ v then some .positive else none
    | _ => none

def writtenDigits (n : Numeral) (v : Int) : List Nat :=
  List.replicate (n.minWidth - (digitValues v.natAbs).length) 0 ++ digitValues v.natAbs

theorem ofDigits_writtenDigits (n : Numeral) (v : Int) :
    ofDigits (n.writtenDigits v) = v.natAbs :=
  ofDigits_paddedDigits n.minWidth v.natAbs

theorem length_writtenDigits (n : Numeral) (v : Int) :
    (n.writtenDigits v).length = max n.minWidth (decimal v.natAbs).length :=
  length_paddedDigits n.minWidth v.natAbs

theorem lt_ten_of_mem_writtenDigits {v : Int} {d : Nat} (h : d ∈ n.writtenDigits v) : d < 10 :=
  lt_ten_of_mem_paddedDigits h

/-- What is written: the sign and the digits of the shown value, which fit the greatest width. -/
theorem render_of_ok (hs : s.Legible) {text : List Char} (h : n.render s value = .ok text) :
    (decimal (n.shown value).natAbs).length ≤ n.maxWidth ∧
    (n.shown value < 0 → n.sign ≠ .notNegative) ∧
    text = ((n.writtenSign (n.shown value)).map (Sign.char s)).toList ++
      (n.writtenDigits (n.shown value)).map s.digitChar := by
  have hbody : List.replicate (n.minWidth - (decimal (n.shown value).natAbs).length) s.zero ++
      s.localize (decimal (n.shown value).natAbs) =
        (n.writtenDigits (n.shown value)).map s.digitChar :=
    Symbols.replicate_zero_append_localize hs _ _
  simp only [render, hbody] at h
  generalize n.shown value = v at h ⊢
  by_cases hwide : n.maxWidth < (decimal v.natAbs).length
  · simp [hwide] at h
  rw [if_neg hwide] at h
  refine ⟨by omega, ?_, ?_⟩
  · rintro hneg hsign
    simp [hneg, hsign] at h
  by_cases hneg : v < 0
  · rw [if_pos hneg] at h
    cases hsign : n.sign <;> simp [hsign] at h <;> simp [writtenSign, hneg, hsign, Sign.char, ← h]
  · rw [if_neg hneg] at h
    cases hsign : n.sign <;> simp only [hsign] at h
    case exceedsPad =>
      by_cases hpad : n.minWidth < maxDigits ∧ (tenPow n.minWidth : Int) ≤ v
      · rw [if_pos hpad] at h
        cases h
        simp [writtenSign, hneg, hsign, hpad, Sign.char]
      · rw [if_neg hpad] at h
        cases h
        simp [writtenSign, hneg, hsign, hpad]
    all_goals
      cases h
      simp [writtenSign, hneg, hsign, Sign.char]

/-- A number of a fixed width is written if it is not negative and has no more digits. -/
theorem render_fixed (hs : s.Legible) {width : Nat} (hwidth : 0 < width)
    (hmin : n.minWidth = width) (hmax : n.maxWidth = width) (hsign : n.sign = .notNegative)
    (value : Int) :
    n.render s value =
      if tenPow width ≤ (n.shown value).natAbs then .error (.tooWide n.field (n.shown value) width)
      else if n.shown value < 0 then .error (.negative n.field (n.shown value))
      else .ok ((paddedDigits width (n.shown value).natAbs).map s.digitChar) := by
  have hwide : width < (decimal (n.shown value).natAbs).length ↔
      tenPow width ≤ (n.shown value).natAbs := lt_length_decimal_iff hwidth
  simp only [render, hmin, hmax, hsign, hwide, Symbols.replicate_zero_append_localize hs]

theorem render_of_notNegative (hs : s.Legible) (hwidth : n.minWidth = n.maxWidth)
    (hsign : n.sign = .notNegative) {text : List Char} (h : n.render s value = .ok text) :
    ∃ ds : List Nat, (∀ d ∈ ds, d < 10) ∧ ds.length = n.minWidth ∧ text = ds.map s.digitChar := by
  obtain ⟨hmax, hneg, rfl⟩ := render_of_ok hs h
  have hv : ¬ n.shown value < 0 := fun hlt => hneg hlt hsign
  have hnone : n.writtenSign (n.shown value) = none := by
    simp [writtenSign, hv, hsign]
  refine ⟨n.writtenDigits (n.shown value), fun d => lt_ten_of_mem_writtenDigits, ?_, ?_⟩
  · rw [length_writtenDigits]
    omega
  · rw [hnone, Option.map_none, Option.toList_none, List.nil_append]

/-- The digits that follow do not change how many digits belong to the number. -/
theorem length_digitRun_of_leaves {ds : List Nat} {rest : List Char}
    (hmin : n.minWidth ≤ ds.length) (hmax : ds.length ≤ n.maxWidth) (hrest : n.Leaves s rest) :
    (s.digitRun (n.maxWidth + n.reserved - ds.length) rest).length = n.reserved := by
  rcases hrest with ⟨hfixed, hzero⟩ | hvariable
  · have hlimit : n.maxWidth + n.reserved - ds.length = 0 := by omega
    rw [hlimit, hzero]
    rfl
  · exact hvariable _ (by omega)

section Strict

variable {sign : Option Sign} {ds : List Nat} {start body : List Char} {r : Reading}

/-- The value of digits behind a sign. -/
def signedValue (sign : Option Sign) (ds : List Nat) : Int :=
  if sign = some .negative then -(ofDigits ds : Int) else ofDigits ds

/-- The digits without the last one if their value has more than 64 bits. -/
def fitting (sign : Option Sign) (ds : List Nat) : List Nat :=
  if FitsInt64 (signedValue sign ds) then ds else ds.dropLast

theorem signedValue_dropLast (hds : ∀ d ∈ ds, d < 10) :
    signedValue sign ds.dropLast = (signedValue sign ds).tdiv 10 := by
  have hten : ofDigits ds.dropLast = ofDigits ds / 10 := by
    rcases List.eq_nil_or_concat ds with rfl | ⟨front, last, rfl⟩
    · rfl
    · have hlast : last < 10 := hds last (by simp)
      rw [List.concat_eq_append, List.dropLast_concat, ofDigits_append_singleton]
      omega
  unfold signedValue
  rw [hten]
  split
  · rw [Int.neg_tdiv, Int.tdiv_eq_ediv_of_nonneg (Int.natCast_nonneg _)]
    rfl
  · rw [Int.tdiv_eq_ediv_of_nonneg (Int.natCast_nonneg _)]
    rfl

theorem natAbs_signedValue (sign : Option Sign) (ds : List Nat) :
    (signedValue sign ds).natAbs = ofDigits ds := by
  unfold signedValue
  split
  · rw [Int.natAbs_neg, Int.natAbs_natCast]
  · rw [Int.natAbs_natCast]

/-- Eighteen digits never have more than 64 bits. -/
theorem fits_signedValue (hds : ∀ d ∈ ds, d < 10) (hlen : ds.length < maxDigits) :
    FitsInt64 (signedValue sign ds) := by
  have hlt : ofDigits ds < tenPow 18 := ofDigits_lt_of_length_le hds (Nat.le_of_lt_succ hlen)
  have habs := natAbs_signedValue sign ds
  simp only [tenPow] at hlt
  unfold FitsInt64 int64Min int64Max
  omega

theorem fitting_of_length_lt (hds : ∀ d ∈ ds, d < 10) (hlen : ds.length < maxDigits) :
    fitting sign ds = ds :=
  if_pos (fits_signedValue hds hlen)

theorem fits_signedValue_fitting (hds : ∀ d ∈ ds, d < 10) (hlen : ds.length ≤ maxDigits) :
    FitsInt64 (signedValue sign (fitting sign ds)) := by
  unfold fitting
  split
  · assumption
  · refine fits_signedValue (fun d hd => hds d (List.dropLast_subset ds hd)) ?_
    have hmax : maxDigits = 19 := rfl
    rw [List.length_dropLast]
    omega

/-- The rules for a sign in strict mode: there is no minus zero, and a style that shows by a plus
sign that digits exceed their least width has it for these and no others. -/
structure SignRules (n : Numeral) (sign : Option Sign) (ds : List Nat) : Prop where
  not_minus_zero : sign = some .negative → ofDigits ds ≠ 0
  plus_iff : n.sign = .exceedsPad → sign ≠ some .negative →
    (sign = some .positive ↔ n.minWidth < ds.length)

/-- In strict mode a number is read if there are enough digits for its least width and the sign
obeys its rules. It has the digits that it does not leave for the numbers that follow. -/
theorem readDigits_eq_ok_iff {run : List Nat}
    (hrun : s.digitRun (n.maxWidth + n.reserved) body = run)
    (hds : run.take (max n.minWidth (run.length - n.reserved)) = ds) :
    n.readDigits s true sign start body = .ok r ↔
      n.minWidth ≤ run.length ∧ n.SignRules sign ds ∧
        r = .value n.field (n.decode (signedValue sign (fitting sign ds))) body
          (body.drop (fitting sign ds).length) := by
  have hten : ∀ d ∈ ds, d < 10 := by
    intro d hd
    rw [← hds] at hd
    have hspec := (s.digitRun_spec (n.maxWidth + n.reserved) body).2.1
    rw [hrun] at hspec
    exact hspec d (List.mem_of_mem_take hd)
  by_cases hshort : run.length < n.minWidth
  · simp only [readDigits, hrun, Bool.true_or, if_true, if_pos hshort]
    exact iff_of_false nofun fun h => absurd h.1 (Nat.not_le.2 hshort)
  have hlong : n.minWidth ≤ run.length := Nat.not_lt.1 hshort
  have hcount : max n.minWidth (run.length - n.reserved) = ds.length := by
    rw [← hds, List.length_take]
    omega
  have hvalue : (if sign = some .negative then -(ofDigits ds : Int) else ofDigits ds) =
      signedValue sign ds := rfl
  rw [hcount] at hds
  simp only [readDigits, hrun, Bool.true_or, if_true, hcount, hds, if_neg hshort, Bool.true_and,
    beq_iff_eq, and_true, Int.natCast_eq_zero, hvalue, hlong, true_and]
  by_cases hminus : sign = some .negative ∧ ofDigits ds = 0
  · rw [if_pos hminus]
    exact iff_of_false nofun fun h => h.1.not_minus_zero hminus.1 hminus.2
  rw [if_neg hminus]
  by_cases hplus : sign = some .positive ∧ n.sign = .exceedsPad ∧ ds.length ≤ n.minWidth
  · rw [if_pos hplus]
    refine iff_of_false nofun fun h => ?_
    obtain ⟨rfl, hpad, hle⟩ := hplus
    exact absurd ((h.1.plus_iff hpad nofun).1 rfl) (Nat.not_lt.2 hle)
  rw [if_neg hplus]
  by_cases hbare : sign = none ∧ n.sign = .exceedsPad ∧ n.minWidth < ds.length
  · rw [if_pos hbare]
    refine iff_of_false nofun fun h => ?_
    obtain ⟨rfl, hpad, hlt⟩ := hbare
    cases (h.1.plus_iff hpad nofun).2 hlt
  rw [if_neg hbare]
  have hrules : n.SignRules sign ds := by
    refine ⟨fun hneg hzero => hminus ⟨hneg, hzero⟩, fun hpad hneg => ?_⟩
    rcases sign with _ | _ | _
    · exact iff_of_false nofun fun hlt => hbare ⟨rfl, hpad, hlt⟩
    · exact iff_of_true rfl (Nat.not_le.1 fun hle => hplus ⟨rfl, hpad, hle⟩)
    · exact absurd rfl hneg
  simp only [hrules, true_and]
  unfold fitting
  split
  · rw [Except.ok.injEq]
    exact eq_comm
  · rw [Except.ok.injEq, signedValue_dropLast hten, List.length_dropLast]
    exact eq_comm

/-- In strict mode the digits are read as they were written, if none of the rules on signs refuses
them and the value has 64 bits. -/
theorem readDigits_append (hs : s.Legible) {rest : List Char} (hds : ∀ d ∈ ds, d < 10)
    (hmin : n.minWidth ≤ ds.length) (hmax : ds.length ≤ n.maxWidth)
    (hlen : (s.digitRun (n.maxWidth + n.reserved - ds.length) rest).length = n.reserved)
    (hzero : sign = some .negative → ofDigits ds ≠ 0)
    (hplus : sign = some .positive → n.sign = .exceedsPad → n.minWidth < ds.length)
    (hbare : sign = none → n.sign = .exceedsPad → ds.length ≤ n.minWidth) {v : Int}
    (hv : v = if sign = some .negative then -(ofDigits ds : Int) else ofDigits ds)
    (hfits : FitsInt64 v) :
    n.readDigits s true sign start (ds.map s.digitChar ++ rest) =
      .ok (.value n.field (n.decode v) (ds.map s.digitChar ++ rest) rest) := by
  have hrun : s.digitRun (n.maxWidth + n.reserved) (ds.map s.digitChar ++ rest) =
      ds ++ s.digitRun (n.maxWidth + n.reserved - ds.length) rest := by
    rw [← Symbols.digitRun_append hs hds]
    congr 1
    omega
  generalize s.digitRun (n.maxWidth + n.reserved - ds.length) rest = behind at hrun hlen
  have htake : (ds ++ behind).take
      (max n.minWidth ((ds ++ behind).length - n.reserved)) = ds := by
    rw [List.length_append, hlen]
    exact List.take_left' (by omega)
  have hrules : n.SignRules sign ds := by
    refine ⟨hzero, fun hpad hneg => ?_⟩
    rcases sign with _ | _ | _
    · exact iff_of_false nofun (Nat.not_lt.2 (hbare rfl hpad))
    · exact iff_of_true rfl (hplus rfl hpad)
    · exact absurd rfl hneg
  change v = signedValue sign ds at hv
  have hall : fitting sign ds = ds := if_pos (hv ▸ hfits)
  refine (readDigits_eq_ok_iff hrun htake).2 ⟨?_, hrules, ?_⟩
  · rw [List.length_append]
    omega
  · rw [hall, hv, List.drop_left' (List.length_map _)]

/-- A number that is read in strict mode has a sign that its style calls for, if it has one. -/
theorem exists_sign_of_read {text : List Char} (h : n.read s true text = .ok r) :
    ∃ sign body, sign ∈ n.sign.signs ∧ text = (sign.map (Sign.char s)).toList ++ body ∧
      n.readDigits s true sign text body = .ok r := by
  cases text with
  | nil => cases h
  | cons c rest =>
      simp only [read] at h
      split_ifs at h with hpositive hadmits hnegative hadmits halways
      · exact ⟨some .positive, rest, SignStyle.positive_mem_signs.2 hadmits, hpositive ▸ rfl, h⟩
      · exact ⟨some .negative, rest, SignStyle.negative_mem_signs.2 hadmits, hnegative ▸ rfl, h⟩
      · exact ⟨none, c :: rest, SignStyle.none_mem_signs.2 fun he => halways ⟨he, trivial⟩, rfl, h⟩

end Strict

/-- A sign that the style admits is read first. -/
theorem read_sign_append (hs : s.Legible) {sign : Option Sign} {ds : List Nat} {rest : List Char}
    (hds : ∀ d ∈ ds, d < 10) (hne : ds ≠ [])
    (hpositive : sign = some .positive →
      n.sign.admits true true (n.minWidth == n.maxWidth) = true)
    (hnegative : sign = some .negative →
      n.sign.admits false true (n.minWidth == n.maxWidth) = true)
    (hbare : sign = none → n.sign ≠ .always) :
    n.read s true ((sign.map (Sign.char s)).toList ++ (ds.map s.digitChar ++ rest)) =
      n.readDigits s true sign
        ((sign.map (Sign.char s)).toList ++ (ds.map s.digitChar ++ rest))
        (ds.map s.digitChar ++ rest) := by
  cases sign with
  | none =>
      obtain ⟨d, ds, rfl⟩ := List.exists_cons_of_ne_nil hne
      have hd : s.digit? (s.digitChar d) = some d := Symbols.digit?_digitChar hs (hds d (by simp))
      have hp : s.digitChar d ≠ s.positive := by
        intro he
        rw [he, hs.digit?_positive] at hd
        cases hd
      have hm : s.digitChar d ≠ s.negative := by
        intro he
        rw [he, hs.digit?_negative] at hd
        cases hd
      simp [read, hp, hm, hbare rfl]
  | some sign =>
      cases sign with
      | positive => simp [read, Sign.char, hpositive rfl]
      | negative =>
          simp [read, Sign.char, hs.positive_ne_negative.symm, hnegative rfl]

theorem shown_fits (h : n.Recovers value) : FitsInt64 (n.shown value) := by
  unfold shown
  split
  · rename_i w hw
    obtain ⟨hbase, hle, hlt⟩ := h.mem_window w hw
    have hmod : (value.tmod w.span).natAbs ≤ value.natAbs := by
      rw [Int.natAbs_tmod]
      exact Nat.mod_le _ _
    have hfits := h.fits
    simp only [FitsInt64, int64Min, int64Max] at hfits ⊢
    omega
  · exact h.fits

theorem shown_nonneg_of_never (h : n.Recovers value) (hsign : n.sign = .never) :
    0 ≤ n.shown value := by
  unfold shown
  split
  · omega
  · exact h.nonneg_of_never hsign

theorem decode_shown (h : n.Recovers value) : n.decode (n.shown value) = value := by
  unfold decode shown
  split
  · rename_i w hw
    obtain ⟨hbase, hle, hlt⟩ := h.mem_window w hw
    exact Window.decode_lastDigits hle hlt (.inl hbase)
  · rfl

theorem writtenSign_eq_negative_iff {v : Int} (hnever : n.sign = .never → 0 ≤ v) :
    n.writtenSign v = some .negative ↔ v < 0 := by
  unfold writtenSign
  by_cases hv : v < 0
  · have hsign : n.sign ≠ .never := fun h => absurd (hnever h) (by omega)
    simp [hv, hsign]
  · cases hsign : n.sign <;> simp [hv]

theorem writtenSign_eq_positive_iff {v : Int} :
    n.writtenSign v = some .positive ↔ 0 ≤ v ∧ (n.sign = .always ∨
      n.sign = .exceedsPad ∧ n.minWidth < maxDigits ∧ (tenPow n.minWidth : Int) ≤ v) := by
  unfold writtenSign
  by_cases hv : v < 0
  · have hnot : ¬ 0 ≤ v := by omega
    cases hsign : n.sign <;> simp [hv, hnot]
  · have hle : 0 ≤ v := by omega
    cases hsign : n.sign <;> simp [hv, hle]

/-- A plus sign is written if and only if the digits exceed the least width. -/
theorem minWidth_lt_length_iff (hn : n.WellSized) {v : Int} (hv : 0 ≤ v)
    (hmax : (decimal v.natAbs).length ≤ n.maxWidth) :
    n.minWidth < (decimal v.natAbs).length ↔
      n.minWidth < maxDigits ∧ (tenPow n.minWidth : Int) ≤ v := by
  have hpow : (decimal v.natAbs).length ≤ n.minWidth ↔ v.natAbs < tenPow n.minWidth :=
    length_decimal_le_iff hn.one_le_minWidth
  have hle := hn.maxWidth_le
  constructor
  · intro h
    refine ⟨by omega, ?_⟩
    have hge : tenPow n.minWidth ≤ v.natAbs := by
      rw [← Nat.not_lt, ← hpow]
      omega
    omega
  · rintro ⟨-, h⟩
    rw [← Nat.not_le, hpow]
    omega

section WrittenSign

variable {v : Int}

theorem admits_of_writtenSign_positive (h : n.writtenSign v = some .positive)
    (fixedWidth : Bool) : n.sign.admits true true fixedWidth = true := by
  rcases (writtenSign_eq_positive_iff.1 h).2 with halways | ⟨hexceeds, -⟩
  · simp [halways, SignStyle.admits]
  · simp [hexceeds, SignStyle.admits]

theorem admits_of_writtenSign_negative (hnever : n.sign = .never → 0 ≤ v)
    (hneg : v < 0 → n.sign ≠ .notNegative) (h : n.writtenSign v = some .negative)
    (fixedWidth : Bool) : n.sign.admits false true fixedWidth = true := by
  have hv := (writtenSign_eq_negative_iff hnever).1 h
  have hnot := hneg hv
  cases hsign : n.sign with
  | never => exact absurd (hnever hsign) (by omega)
  | notNegative => exact absurd hsign hnot
  | _ => simp [SignStyle.admits]

theorem nonneg_of_writtenSign_none (hnever : n.sign = .never → 0 ≤ v)
    (h : n.writtenSign v = none) : 0 ≤ v := by
  refine Int.not_lt.1 fun hv => ?_
  rw [(writtenSign_eq_negative_iff hnever).2 hv] at h
  cases h

theorem ne_always_of_writtenSign_none (hnever : n.sign = .never → 0 ≤ v)
    (h : n.writtenSign v = none) : n.sign ≠ .always := by
  intro halways
  have hv := nonneg_of_writtenSign_none hnever h
  rw [writtenSign_eq_positive_iff.2 ⟨hv, Or.inl halways⟩] at h
  cases h

theorem minWidth_lt_of_writtenSign_positive (hn : n.WellSized)
    (hmax : (decimal v.natAbs).length ≤ n.maxWidth) (hexceeds : n.sign = .exceedsPad)
    (h : n.writtenSign v = some .positive) : n.minWidth < (n.writtenDigits v).length := by
  obtain ⟨hv, hwide⟩ := writtenSign_eq_positive_iff.1 h
  have hpad : n.minWidth < maxDigits ∧ (tenPow n.minWidth : Int) ≤ v := by
    simpa [hexceeds] using hwide
  have hlt := (minWidth_lt_length_iff hn hv hmax).2 hpad
  have hlen := n.length_writtenDigits v
  omega

theorem length_le_minWidth_of_writtenSign_none (hn : n.WellSized)
    (hmax : (decimal v.natAbs).length ≤ n.maxWidth) (hnever : n.sign = .never → 0 ≤ v)
    (hexceeds : n.sign = .exceedsPad) (h : n.writtenSign v = none) :
    (n.writtenDigits v).length ≤ n.minWidth := by
  rw [length_writtenDigits]
  refine Nat.max_le.2 ⟨Nat.le_refl _, Nat.not_lt.1 fun hwide => ?_⟩
  have hv := nonneg_of_writtenSign_none hnever h
  have hpad := (minWidth_lt_length_iff hn hv hmax).1 hwide
  rw [writtenSign_eq_positive_iff.2 ⟨hv, Or.inr ⟨hexceeds, hpad⟩⟩] at h
  cases h

end WrittenSign

/-- What was written for a value is read as this value, if as many digits follow as the number
leaves, counted up to its greatest width. -/
theorem read_render_append_of_length (hs : s.Legible) (hn : n.WellSized) (hv : n.Recovers value)
    {text : List Char} (h : n.render s value = .ok text) {rest : List Char}
    (hrest : (s.digitRun (n.maxWidth + n.reserved - (n.writtenDigits (n.shown value)).length)
      rest).length = n.reserved) :
    ∃ body, n.read s true (text ++ rest) = .ok (.value n.field value body rest) := by
  obtain ⟨hmax, hneg, rfl⟩ := render_of_ok hs h
  clear h
  have hfits := shown_fits hv
  have hnever := shown_nonneg_of_never hv
  have hdecode := decode_shown hv
  generalize n.shown value = v at hmax hneg hfits hnever hdecode hrest
  have hvalue := n.ofDigits_writtenDigits v
  have hlen := n.length_writtenDigits v
  have hlt : ∀ d ∈ n.writtenDigits v, d < 10 := fun d => lt_ten_of_mem_writtenDigits
  have hnegative := writtenSign_eq_negative_iff hnever
  have hone := hn.one_le_minWidth
  have hsizes := hn.minWidth_le_maxWidth
  have hne : n.writtenDigits v ≠ [] := by
    intro hnil
    rw [hnil, List.length_nil] at hlen
    omega
  have htotal : v = if n.writtenSign v = some .negative then -(ofDigits (n.writtenDigits v) : Int)
      else ofDigits (n.writtenDigits v) := by
    rw [hvalue]
    by_cases hv0 : v < 0
    · rw [if_pos (hnegative.2 hv0)]
      omega
    · rw [if_neg fun hsome => hv0 (hnegative.1 hsome)]
      omega
  have hzero : n.writtenSign v = some .negative → ofDigits (n.writtenDigits v) ≠ 0 := by
    intro hsome
    have := hnegative.1 hsome
    omega
  refine ⟨(n.writtenDigits v).map s.digitChar ++ rest, ?_⟩
  rw [List.append_assoc, read_sign_append hs hlt hne
    (fun hsome => admits_of_writtenSign_positive hsome _)
    (fun hsome => admits_of_writtenSign_negative hnever hneg hsome _)
    (ne_always_of_writtenSign_none hnever)]
  rw [readDigits_append hs hlt (by omega) (by omega) hrest hzero
    (fun hsome hexceeds => minWidth_lt_of_writtenSign_positive hn hmax hexceeds hsome)
    (fun hnone hexceeds => length_le_minWidth_of_writtenSign_none hn hmax hnever hexceeds hnone)
    htotal hfits, hdecode]

/-- What was written for a value is read as this value, in front of the digits that it leaves. -/
theorem read_render_append (hs : s.Legible) (hn : n.WellSized) (hv : n.Recovers value)
    {text : List Char} (h : n.render s value = .ok text) {rest : List Char}
    (hrest : n.Leaves s rest) :
    ∃ body, n.read s true (text ++ rest) = .ok (.value n.field value body rest) := by
  have hmax := (render_of_ok hs h).1
  have hlen := n.length_writtenDigits (n.shown value)
  have hsizes := hn.minWidth_le_maxWidth
  exact read_render_append_of_length hs hn hv h
    (length_digitRun_of_leaves (by omega) (by omega) hrest)

end Numeral

end DateTimeText
