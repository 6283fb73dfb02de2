import DateTimeText.Node.Reading
import DateTimeText.Text.Decimal

/-!
# Digits written and read

The digits of a number are a list of values, the most significant first. Symbols that are legible
write each value as a character of their own and read it back, up to the first character that is
none of theirs.
-/

namespace DateTimeText

theorem tenPow_eq_pow (n : Nat) : tenPow n = Nat.pow 10 n := by
  induction n with
  | zero => rfl
  | succ n ih =>
      rw [tenPow, ih]
      exact Nat.mul_comm 10 (Nat.pow 10 n)

theorem tenPow_pos (n : Nat) : 0 < tenPow n := by
  rw [tenPow_eq_pow]
  exact Nat.pow_pos (by decide)

theorem tenPow_add (m n : Nat) : tenPow (m + n) = tenPow m * tenPow n := by
  rw [tenPow_eq_pow, tenPow_eq_pow, tenPow_eq_pow]
  exact Nat.pow_add 10 m n

theorem tenPow_le_tenPow {m n : Nat} (h : m ≤ n) : tenPow m ≤ tenPow n := by
  rw [tenPow_eq_pow, tenPow_eq_pow]
  exact Nat.pow_le_pow_right (by decide) h

theorem tenPow_nine_sub_mul {width : Nat} (h : width ≤ 9) :
    tenPow (9 - width) * tenPow width = 1000000000 := by
  rw [← tenPow_add, Nat.sub_add_cancel h]
  rfl

/-- The nanoseconds of a fraction of a second with `width` digits. -/
theorem mul_div_tenPow {width : Nat} (h : width ≤ 9) (n : Nat) :
    n * 1000000000 / tenPow width = n * tenPow (9 - width) := by
  rw [← tenPow_nine_sub_mul h, ← Nat.mul_assoc, Nat.mul_div_cancel _ (tenPow_pos width)]

/-- The values of the decimal digits of a number. -/
def digitValues (n : Nat) : List Nat :=
  (decimal n).map fun c => c.toNat - 48

@[simp] theorem length_digitValues (n : Nat) : (digitValues n).length = (decimal n).length := by
  simp [digitValues]

theorem ofDigits_digitValues (n : Nat) : ofDigits (digitValues n) = n := by
  have h : Nat.ofDigitChars 10 (Nat.toDigits 10 n) 0 = n := Nat.ofDigitChars_ten_toDigits
  rw [Nat.ofDigitChars_eq_foldl] at h
  rw [ofDigits, digitValues, List.foldl_map]
  exact h

theorem ofDigits_replicate_zero_append (k : Nat) (ds : List Nat) :
    ofDigits (List.replicate k 0 ++ ds) = ofDigits ds := by
  induction k with
  | zero => simp
  | succ k ih => simpa [ofDigits, List.replicate_succ] using ih

theorem ofDigits_append (xs ys : List Nat) :
    ofDigits (xs ++ ys) = ofDigits xs * tenPow ys.length + ofDigits ys := by
  have hfrom : ∀ (ys : List Nat) (a : Nat), ys.foldl (fun total d => 10 * total + d) a =
      a * tenPow ys.length + ofDigits ys := by
    intro ys
    induction ys with
    | nil => simp [tenPow]
    | cons y ys ih =>
        intro a
        rw [ofDigits, List.foldl_cons, List.foldl_cons, ih, ih, List.length_cons, tenPow,
          Nat.add_mul, Nat.mul_zero, Nat.zero_add, Nat.mul_comm 10 a, Nat.mul_assoc, Nat.add_assoc]
  rw [ofDigits, List.foldl_append]
  exact hfrom ys _

theorem ofDigits_cons (d : Nat) (ds : List Nat) :
    ofDigits (d :: ds) = d * tenPow ds.length + ofDigits ds := by
  have h := ofDigits_append [d] ds
  simpa [ofDigits] using h

theorem ofDigits_lt {ds : List Nat} (h : ∀ d ∈ ds, d < 10) : ofDigits ds < tenPow ds.length := by
  induction ds with
  | nil => exact Nat.zero_lt_one
  | cons d ds ih =>
      rw [List.forall_mem_cons] at h
      have hd := Nat.mul_le_mul_right (tenPow ds.length) (Nat.le_of_lt_succ h.1)
      have hds := ih h.2
      rw [ofDigits_cons, List.length_cons, tenPow]
      omega

theorem ofDigits_lt_of_length_le {ds : List Nat} {k : Nat} (h : ∀ d ∈ ds, d < 10)
    (hlen : ds.length ≤ k) : ofDigits ds < tenPow k :=
  Nat.lt_of_lt_of_le (ofDigits_lt h) (tenPow_le_tenPow hlen)

theorem isDigit_of_mem_decimal {n : Nat} {c : Char} (h : c ∈ decimal n) : c.isDigit = true :=
  Nat.isDigit_of_mem_toDigits (by decide) (by decide) h

theorem lt_ten_of_mem_digitValues {n d : Nat} (h : d ∈ digitValues n) : d < 10 := by
  obtain ⟨c, hc, rfl⟩ := List.mem_map.1 h
  have hle := (Char.isDigit_iff_toNat.1 (isDigit_of_mem_decimal hc)).2
  have h57 : '9'.toNat = 57 := rfl
  omega

theorem length_decimal_le_iff {n k : Nat} (hk : 0 < k) :
    (decimal n).length ≤ k ↔ n < tenPow k := by
  rw [tenPow_eq_pow]
  exact Nat.length_toDigits_le_iff (by decide) hk

theorem lt_length_decimal_iff {n k : Nat} (hk : 0 < k) :
    k < (decimal n).length ↔ tenPow k ≤ n := by
  rw [← Nat.not_le, length_decimal_le_iff hk, Nat.not_lt]

theorem decimal_of_lt {d : Nat} (hd : d < 10) : decimal d = [Nat.digitChar d] :=
  Nat.toDigits_of_lt_base hd

theorem decimal_ten_mul_add {n d : Nat} (hn : 0 < n) (hd : d < 10) :
    decimal (10 * n + d) = decimal n ++ decimal d :=
  (Nat.toDigits_append_toDigits (by decide) hn hd).symm

/-- Only zero has a digit zero in front. -/
theorem ne_zero_of_mem_head?_decimal {n : Nat} (hn : 0 < n) :
    ∀ c ∈ (decimal n).head?, c ≠ '0' := by
  induction n using Nat.strongRecOn with
  | ind n ih =>
      by_cases hlt : n < 10
      · have hdigit : ∀ d < 10, 0 < d → Nat.digitChar d ≠ '0' := by decide
        rw [decimal_of_lt hlt]
        rintro c ⟨⟩
        exact hdigit n hlt hn
      · have htens : 0 < n / 10 := by omega
        have hfront := ih (n / 10) (by omega) htens
        obtain ⟨c, cs, hcs⟩ := List.exists_cons_of_ne_nil
          (show decimal (n / 10) ≠ [] from Nat.toDigits_ne_nil)
        rw [hcs] at hfront
        rwa [← Nat.div_add_mod n 10, decimal_ten_mul_add htens (Nat.mod_lt n (by decide)), hcs]

theorem length_zeroPadded (width n : Nat) :
    (zeroPadded width n).length = max width (decimal n).length := by
  simp only [zeroPadded, List.length_append, List.length_replicate]
  omega

theorem length_zeroPadded_of_lt {width n : Nat} (hwidth : 0 < width) (hn : n < tenPow width) :
    (zeroPadded width n).length = width := by
  have hle := (length_decimal_le_iff hwidth).2 hn
  rw [length_zeroPadded]
  omega

theorem zeroPadded_zero {width : Nat} (hwidth : 0 < width) :
    zeroPadded width 0 = List.replicate width '0' := by
  obtain ⟨k, rfl⟩ := Nat.exists_eq_succ_of_ne_zero (Nat.ne_of_gt hwidth)
  exact List.replicate_succ'.symm

theorem zeroPadded_of_le {width n : Nat} (h : width ≤ (decimal n).length) :
    zeroPadded width n = decimal n := by
  rw [zeroPadded, Nat.sub_eq_zero_of_le h, List.replicate_zero, List.nil_append]

theorem zeroPadded_ten_mul_add {width : Nat} (hwidth : 0 < width) (n : Nat) {d : Nat}
    (hd : d < 10) : zeroPadded (width + 1) (10 * n + d) = zeroPadded width n ++ decimal d := by
  have hlen : (decimal d).length = 1 := by rw [decimal_of_lt hd, List.length_singleton]
  unfold zeroPadded
  rcases Nat.eq_zero_or_pos n with rfl | hn
  · obtain ⟨k, rfl⟩ := Nat.exists_eq_add_of_lt hwidth
    have hzero : decimal 0 = ['0'] := rfl
    simp only [Nat.mul_zero, Nat.zero_add, hlen, hzero, List.length_singleton,
      Nat.add_sub_cancel, List.replicate_succ']
  · simp only [decimal_ten_mul_add hn hd, List.length_append, hlen, Nat.add_sub_add_right,
      List.append_assoc]

/-- The digits of a number in front of the last ones, which are padded with zeros. -/
theorem decimal_mul_tenPow_add {h : Nat} (hh : 0 < h) {width y : Nat} (hwidth : 0 < width)
    (hy : y < tenPow width) :
    decimal (h * tenPow width + y) = decimal h ++ zeroPadded width y := by
  induction hwidth generalizing y with
  | refl =>
      have hlen : 1 ≤ (decimal y).length := Nat.length_toDigits_pos
      rw [zeroPadded_of_le hlen, ← decimal_ten_mul_add hh hy, Nat.mul_comm]
      rfl
  | @step width hwidth ih =>
      have hdiv := Nat.div_add_mod y 10
      have hmod : y % 10 < 10 := Nat.mod_lt y (by decide)
      have hquot : y / 10 < tenPow width := Nat.div_lt_of_lt_mul hy
      have hsplit : h * tenPow (width + 1) + y = 10 * (h * tenPow width + y / 10) + y % 10 := by
        rw [tenPow, Nat.mul_left_comm]
        omega
      have hpos : 0 < h * tenPow width := Nat.mul_pos hh (by omega)
      rw [hsplit, decimal_ten_mul_add (by omega) hmod, ih hquot, List.append_assoc,
        ← zeroPadded_ten_mul_add hwidth _ hmod, hdiv]

theorem zeroPadded_mul_tenPow_add {h : Nat} (hh : 0 < h) {width y : Nat} (hwidth : 0 < width)
    (hy : y < tenPow width) :
    zeroPadded width (h * tenPow width + y) = decimal h ++ zeroPadded width y := by
  have hlen : width ≤ (decimal (h * tenPow width + y)).length := by
    rw [decimal_mul_tenPow_add hh hwidth hy, List.length_append, length_zeroPadded]
    omega
  rw [zeroPadded_of_le hlen, decimal_mul_tenPow_add hh hwidth hy]

/-- The padded digits of a number are those of its parts in front of and behind a place. -/
theorem zeroPadded_add {first last : Nat} (hfirst : 0 < first) (hlast : 0 < last) (h : Nat)
    {y : Nat} (hy : y < tenPow last) :
    zeroPadded (first + last) (h * tenPow last + y) = zeroPadded first h ++ zeroPadded last y := by
  induction hlast generalizing y with
  | refl =>
      have hlen : 1 ≤ (decimal y).length := Nat.length_toDigits_pos
      rw [zeroPadded_of_le hlen, ← zeroPadded_ten_mul_add hfirst h hy, Nat.mul_comm]
      rfl
  | @step last hlast ih =>
      have hdiv := Nat.div_add_mod y 10
      have hmod : y % 10 < 10 := Nat.mod_lt y (by decide)
      have hquot : y / 10 < tenPow last := Nat.div_lt_of_lt_mul hy
      have hsplit : h * tenPow (last + 1) + y = 10 * (h * tenPow last + y / 10) + y % 10 := by
        rw [tenPow, Nat.mul_left_comm]
        omega
      rw [hsplit, Nat.succ_eq_add_one, ← Nat.add_assoc,
        zeroPadded_ten_mul_add (Nat.add_pos_left hfirst last) _ hmod, ih hquot, List.append_assoc,
        ← zeroPadded_ten_mul_add hlast _ hmod, hdiv]

theorem zeroPadded_eq_append {first last : Nat} (hfirst : 0 < first) (hlast : 0 < last) (n : Nat) :
    zeroPadded (first + last) n =
      zeroPadded first (n / tenPow last) ++ zeroPadded last (n % tenPow last) := by
  rw [← zeroPadded_add hfirst hlast _ (Nat.mod_lt n (tenPow_pos last)), Nat.mul_comm,
    Nat.div_add_mod]

/-- The first of the padded digits of a number are those of a quotient. -/
theorem take_zeroPadded {first last n : Nat} (hfirst : 0 < first)
    (hn : n < tenPow (first + last)) :
    (zeroPadded (first + last) n).take first = zeroPadded first (n / tenPow last) := by
  rcases Nat.eq_zero_or_pos last with rfl | hlast
  · rw [Nat.add_zero, tenPow, Nat.div_one, List.take_of_length_le]
    exact Nat.le_of_eq (length_zeroPadded_of_lt hfirst hn)
  · have hquot : n / tenPow last < tenPow first := by
      rwa [Nat.div_lt_iff_lt_mul (tenPow_pos last), ← tenPow_add]
    rw [zeroPadded_eq_append hfirst hlast, List.take_left' (length_zeroPadded_of_lt hfirst hquot)]

/-- The first digits of a number that has more of them. -/
theorem decimal_eq_append_of_lt {width n : Nat} (hwidth : 0 < width)
    (h : width < (decimal n).length) :
    ∃ first more last, decimal n = decimal first ++ zeroPadded more last ∧
      (decimal first).length = width ∧ 0 < more := by
  obtain ⟨more, hmore⟩ : ∃ more, (decimal n).length = width + more :=
    ⟨(decimal n).length - width, by omega⟩
  have hpos : 0 < more := by omega
  have hlarge : tenPow more ≤ n := (lt_length_decimal_iff hpos).1 (by omega)
  have hten := tenPow_pos more
  have hlast : n % tenPow more < tenPow more := Nat.mod_lt n hten
  have hsplit : decimal n = decimal (n / tenPow more) ++ zeroPadded more (n % tenPow more) := by
    rw [← decimal_mul_tenPow_add (Nat.div_pos hlarge hten) hpos hlast, Nat.mul_comm,
      Nat.div_add_mod]
  refine ⟨n / tenPow more, more, n % tenPow more, hsplit, ?_, hpos⟩
  rw [hsplit, List.length_append, length_zeroPadded_of_lt hpos hlast] at hmore
  omega

/-- The digits of a number with zeros in front, at least `width` of them. -/
def paddedDigits (width n : Nat) : List Nat :=
  List.replicate (width - (digitValues n).length) 0 ++ digitValues n

theorem ofDigits_paddedDigits (width n : Nat) : ofDigits (paddedDigits width n) = n := by
  rw [paddedDigits, ofDigits_replicate_zero_append, ofDigits_digitValues]

theorem length_paddedDigits (width n : Nat) :
    (paddedDigits width n).length = max width (decimal n).length := by
  simp only [paddedDigits, List.length_append, List.length_replicate, length_digitValues]
  omega

theorem length_paddedDigits_of_lt {width n : Nat} (hwidth : 0 < width) (hn : n < tenPow width) :
    (paddedDigits width n).length = width := by
  have hle := (length_decimal_le_iff hwidth).2 hn
  rw [length_paddedDigits]
  omega

theorem lt_ten_of_mem_paddedDigits {width n d : Nat} (h : d ∈ paddedDigits width n) : d < 10 := by
  rcases List.mem_append.1 h with hzero | hdigit
  · rw [List.eq_of_mem_replicate hzero]
    decide
  · exact lt_ten_of_mem_digitValues hdigit

theorem paddedDigits_eq_map (width n : Nat) :
    paddedDigits width n = (zeroPadded width n).map fun c => c.toNat - 48 := by
  rw [paddedDigits, zeroPadded, List.map_append, List.map_replicate, length_digitValues]
  rfl

/-- Digits are those of their number, with the zeros in front. -/
theorem paddedDigits_ofDigits {ds : List Nat} (hne : ds ≠ []) (h : ∀ d ∈ ds, d < 10) :
    paddedDigits ds.length (ofDigits ds) = ds := by
  induction ds with
  | nil => exact absurd rfl hne
  | cons d ds ih =>
      rw [List.forall_mem_cons] at h
      have hone : ∀ d < 10, paddedDigits 1 d = [d] := by decide
      rcases ds with _ | ⟨e, ds⟩
      · simpa [ofDigits] using hone d h.1
      · have hsplit := zeroPadded_add Nat.one_pos (Nat.succ_pos ds.length) d (ofDigits_lt h.2)
        rw [ofDigits_cons, List.length_cons, Nat.add_comm, paddedDigits_eq_map,
          List.length_cons, hsplit, List.map_append, ← paddedDigits_eq_map, ← paddedDigits_eq_map,
          hone d h.1]
        exact congrArg (d :: ·) (ih (List.cons_ne_nil e ds) h.2)

namespace Symbols

def digitChar (s : Symbols) (d : Nat) : Char :=
  Char.ofNat (s.zero.toNat + d)

/-- Symbols with ten digits and two signs that are told apart. -/
structure Legible (s : Symbols) : Prop where
  isValidChar : ∀ d < 10, (s.zero.toNat + d).isValidChar
  positive_ne_negative : s.positive ≠ s.negative
  digit?_positive : s.digit? s.positive = none
  digit?_negative : s.digit? s.negative = none

/-- A text that does not go on with a digit. -/
def EndsDigits (s : Symbols) (text : List Char) : Prop :=
  ∀ c ∈ text.head?, s.digit? c = none

variable {s : Symbols}

theorem digitChar_zero (s : Symbols) : s.digitChar 0 = s.zero := by
  simp [digitChar]

theorem digit?_digitChar (hs : s.Legible) {d : Nat} (hd : d < 10) :
    s.digit? (s.digitChar d) = some d := by
  have hn : (s.digitChar d).toNat = s.zero.toNat + d := by
    rw [digitChar, Char.ofNat, dif_pos (hs.isValidChar d hd)]
    rfl
  rw [digit?, hn, if_pos (by omega)]
  simp

theorem map_digit?_map_digitChar (hs : s.Legible) {ds : List Nat} (hds : ∀ d ∈ ds, d < 10) :
    (ds.map s.digitChar).map s.digit? = ds.map some := by
  rw [List.map_map]
  exact List.map_congr_left fun d hd => digit?_digitChar hs (hds d hd)

theorem map_digitChar_inj (hs : s.Legible) {ds es : List Nat} (hds : ∀ d ∈ ds, d < 10)
    (hes : ∀ e ∈ es, e < 10) (h : ds.map s.digitChar = es.map s.digitChar) : ds = es := by
  have hvalues := map_digit?_map_digitChar hs hds
  rw [h, map_digit?_map_digitChar hs hes] at hvalues
  exact ((List.map_inj_right fun _ _ => Option.some.inj).1 hvalues).symm

theorem localizeChar_of_isDigit (hs : s.Legible) {c : Char} (hc : c.isDigit = true) :
    s.localizeChar c = s.digitChar (c.toNat - 48) := by
  obtain ⟨hge, hle⟩ := Char.isDigit_iff_toNat.1 hc
  have h48 : '0'.toNat = 48 := rfl
  have h57 : '9'.toNat = 57 := rfl
  have hn : c.toNat + s.zero.toNat - 48 = s.zero.toNat + (c.toNat - 48) := by omega
  have hvalid := hs.isValidChar (c.toNat - 48) (by omega)
  simp only [localizeChar, digitChar, hn]
  rw [if_pos ⟨hc, hvalid⟩]

theorem localize_decimal (hs : s.Legible) (n : Nat) :
    s.localize (DateTimeText.decimal n) = (digitValues n).map s.digitChar := by
  rw [localize, digitValues, List.map_map]
  apply List.map_congr_left
  intro c hc
  exact localizeChar_of_isDigit hs (isDigit_of_mem_decimal hc)

@[simp] theorem digitRun_zero (s : Symbols) (text : List Char) : s.digitRun 0 text = [] := rfl

/-- Digits that were written are read, and then those that follow up to the limit. -/
theorem digitRun_append (hs : s.Legible) {ds : List Nat} (hds : ∀ d ∈ ds, d < 10) (k : Nat)
    (text : List Char) :
    s.digitRun (ds.length + k) (ds.map s.digitChar ++ text) = ds ++ s.digitRun k text := by
  induction ds with
  | nil => simp
  | cons d ds ih =>
      have hd : s.digit? (s.digitChar d) = some d := digit?_digitChar hs (hds d (by simp))
      have hlen : (d :: ds).length + k = ds.length + k + 1 := by
        rw [List.length_cons]
        omega
      rw [hlen, List.map_cons, List.cons_append, digitRun, hd, List.cons_append]
      simp only [ih fun e he => hds e (by simp [he])]

theorem digitRun_of_endsDigits {text : List Char} (h : s.EndsDigits text) (k : Nat) :
    s.digitRun k text = [] := by
  cases k with
  | zero => rfl
  | succ k =>
      cases text with
      | nil => rfl
      | cons c text => simp [digitRun, h c rfl]

theorem eq_digitChar_of_digit? {c : Char} {d : Nat} (h : s.digit? c = some d) :
    c = s.digitChar d ∧ d < 10 := by
  rw [digit?] at h
  split at h
  · rename_i hrange
    cases h
    have hn : s.zero.toNat + (c.toNat - s.zero.toNat) = c.toNat := by omega
    refine ⟨?_, by omega⟩
    rw [digitChar, hn, Char.ofNat_toNat]
  · cases h

/-- The digits that are read stand at the start of the text, and are no more than the limit. -/
theorem digitRun_spec (s : Symbols) (limit : Nat) (text : List Char) :
    (s.digitRun limit text).length ≤ limit ∧ (∀ d ∈ s.digitRun limit text, d < 10) ∧
      (s.digitRun limit text).map s.digitChar <+: text := by
  induction limit generalizing text with
  | zero => exact ⟨Nat.le_refl 0, nofun, List.nil_prefix⟩
  | succ limit ih =>
      cases text with
      | nil => exact ⟨Nat.zero_le _, nofun, List.nil_prefix⟩
      | cons c text =>
          rw [digitRun]
          cases hd : s.digit? c with
          | none => exact ⟨Nat.zero_le _, nofun, List.nil_prefix⟩
          | some d =>
              obtain ⟨hlen, hlt, hprefix⟩ := ih text
              obtain ⟨rfl, hd10⟩ := eq_digitChar_of_digit? hd
              refine ⟨Nat.succ_le_succ hlen, List.forall_mem_cons.2 ⟨hd10, hlt⟩, ?_⟩
              exact List.cons_prefix_cons.2 ⟨rfl, hprefix⟩

theorem eq_append_of_digitRun (s : Symbols) (limit : Nat) (text : List Char) :
    text = (s.digitRun limit text).map s.digitChar ++
      text.drop (s.digitRun limit text).length := by
  obtain ⟨rest, hrest⟩ := (s.digitRun_spec limit text).2.2
  have hdrop : ((s.digitRun limit text).map s.digitChar ++ rest).drop
      (s.digitRun limit text).length = rest := List.drop_left' (List.length_map _)
  rw [hrest] at hdrop
  rw [hdrop, hrest]

/-- Below the limit digits are read until there are no more. -/
theorem endsDigits_drop_digitRun {limit : Nat} {text : List Char}
    (h : (s.digitRun limit text).length < limit) :
    s.EndsDigits (text.drop (s.digitRun limit text).length) := by
  induction limit generalizing text with
  | zero => exact absurd h (Nat.not_lt_zero _)
  | succ limit ih =>
      cases text with
      | nil => exact nofun
      | cons c text =>
          rw [digitRun] at h ⊢
          cases hd : s.digit? c with
          | none =>
              rintro a ⟨⟩
              exact hd
          | some d =>
              rw [hd, List.length_cons] at h
              exact ih (Nat.lt_of_succ_lt_succ h)

/-- A number with zeros in front, as it is written. -/
theorem replicate_zero_append_localize (hs : s.Legible) (width n : Nat) :
    List.replicate (width - (DateTimeText.decimal n).length) s.zero ++
      s.localize (DateTimeText.decimal n) = (paddedDigits width n).map s.digitChar := by
  rw [paddedDigits, List.map_append, List.map_replicate, digitChar_zero, localize_decimal hs,
    length_digitValues]

theorem localize_zeroPadded (hs : s.Legible) (width n : Nat) :
    s.localize (zeroPadded width n) = (paddedDigits width n).map s.digitChar := by
  have hzero : s.localizeChar '0' = s.digitChar 0 := localizeChar_of_isDigit hs rfl
  rw [zeroPadded, paddedDigits, List.map_append, ← localize_decimal hs, length_digitValues]
  simp [localize, hzero]

theorem standard_legible : standard.Legible where
  isValidChar := by decide
  positive_ne_negative := by decide
  digit?_positive := rfl
  digit?_negative := rfl

theorem map_digitChar_digitValues (n : Nat) :
    (digitValues n).map standard.digitChar = DateTimeText.decimal n := by
  rw [digitValues, List.map_map]
  refine (List.map_congr_left fun c hc => ?_).trans (List.map_id _)
  have hge := (Char.isDigit_iff_toNat.1 (isDigit_of_mem_decimal hc)).1
  have h48 : '0'.toNat = 48 := rfl
  have hn : standard.zero.toNat + (c.toNat - 48) = c.toNat := by
    rw [show standard.zero.toNat = 48 from rfl]
    omega
  rw [Function.comp_apply, digitChar, hn, Char.ofNat_toNat]
  rfl

theorem localize_standard_decimal (n : Nat) :
    standard.localize (DateTimeText.decimal n) = DateTimeText.decimal n := by
  rw [localize_decimal standard_legible, map_digitChar_digitValues]

theorem map_digitChar_paddedDigits (width n : Nat) :
    (paddedDigits width n).map standard.digitChar = zeroPadded width n := by
  rw [paddedDigits, List.map_append, List.map_replicate, map_digitChar_digitValues,
    length_digitValues, digitChar_zero]
  rfl

end Symbols

end DateTimeText
