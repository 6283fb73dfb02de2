import DateTimeText.Node.Fraction
import DateTimeText.Proofs.Text.Digits
import Mathlib.Data.List.DropRight

/-!
# Fractions of a range

The fraction that a value makes of its range has nine digits, cut off behind the ninth. As many of
the first of them are written as the widths of the fraction allow, without the zeros at the end.
What is read from digits is cut off once more. It lies in the range and is not above the value that
was written; and it is at most one below it if the range has no more values than nine digits can
tell apart and none of the nine is lost.
-/

namespace DateTimeText

namespace Fraction

theorem trimZeros_append (cs : List Char) :
    trimZeros cs ++ List.replicate (cs.length - (trimZeros cs).length) '0' = cs := by
  have hsplit : trimZeros cs ++ cs.rtakeWhile (· == '0') = cs := List.rdropWhile_append_rtakeWhile
  have hlen := congrArg List.length hsplit
  rw [List.length_append] at hlen
  have hzeros : cs.rtakeWhile (· == '0') =
      List.replicate (cs.length - (trimZeros cs).length) '0' := by
    refine List.eq_replicate_iff.2 ⟨by omega, fun c hc => ?_⟩
    simpa using List.mem_rtakeWhile_imp hc
  rwa [← hzeros]

theorem length_trimZeros_le (cs : List Char) : (trimZeros cs).length ≤ cs.length := by
  have hlen := congrArg List.length (trimZeros_append cs)
  rw [List.length_append] at hlen
  omega

/-- The digits behind those that are left without the zeros at the end are zeros. -/
theorem tenPow_dvd_of_length_trimZeros_le {parts k : Nat} (hlt : parts < tenPow 9)
    (hk : (trimZeros (zeroPadded 9 parts)).length ≤ k) (hk9 : k ≤ 9) : tenPow (9 - k) ∣ parts := by
  have hlen := length_zeroPadded_of_lt (by decide) hlt
  have hsplit := trimZeros_append (zeroPadded 9 parts)
  generalize trimZeros (zeroPadded 9 parts) = trimmed at hk hsplit
  rw [hlen] at hsplit
  have hdigits : paddedDigits 9 parts =
      trimmed.map (fun c => c.toNat - 48) ++ List.replicate (9 - trimmed.length) 0 := by
    rw [paddedDigits_eq_map, ← hsplit, List.map_append, List.map_replicate]
    rfl
  have hzeros : ofDigits (List.replicate (9 - trimmed.length) 0) = 0 := by
    simpa using ofDigits_replicate_zero_append (9 - trimmed.length) []
  have hvalue := ofDigits_paddedDigits 9 parts
  rw [hdigits, ofDigits_append, hzeros, List.length_replicate, Nat.add_zero] at hvalue
  have hpow : 9 - trimmed.length = (9 - k) + (k - trimmed.length) := by omega
  rw [hpow, tenPow_add, Nat.mul_left_comm] at hvalue
  exact ⟨_, hvalue.symm⟩

/-- Widths that a builder admits. -/
structure WellSized (n : Fraction) : Prop where
  one_le_maxWidth : 1 ≤ n.maxWidth
  minWidth_le_maxWidth : n.minWidth ≤ n.maxWidth
  maxWidth_le : n.maxWidth ≤ 9

theorem of_eq_ok {f : Field} {minWidth maxWidth : Nat} {decimalPoint : Bool} {n : Fraction}
    (h : Fraction.of f minWidth maxWidth decimalPoint = .ok n) :
    n = ⟨f, minWidth, maxWidth, decimalPoint⟩ ∧ n.WellSized := by
  rw [Fraction.of] at h
  split_ifs at h with _ _ hmax horder
  cases h
  exact ⟨rfl, by change 1 ≤ maxWidth; omega, by change minWidth ≤ maxWidth; omega,
    by change maxWidth ≤ 9; omega⟩

/-- The number of digits that are written of so many billionths of a range. -/
def scale (n : Fraction) (parts : Nat) : Nat :=
  if parts = 0 then n.minWidth
  else min (max (trimZeros (zeroPadded 9 parts)).length n.minWidth) n.maxWidth

variable {n : Fraction} {s : Symbols} {parts : Nat}

theorem scale_le (hn : n.WellSized) (parts : Nat) : n.scale parts ≤ n.maxWidth := by
  rw [scale]
  split
  · exact hn.minWidth_le_maxWidth
  · exact Nat.min_le_right _ _

theorem scale_eq_of_fixed (hn : n.minWidth = n.maxWidth) (parts : Nat) :
    n.scale parts = n.maxWidth := by
  rw [scale]
  split
  · exact hn
  · omega

theorem length_trimZeros_pos (hzero : parts ≠ 0) (hlt : parts < tenPow 9) :
    0 < (trimZeros (zeroPadded 9 parts)).length := by
  rw [Nat.pos_iff_ne_zero]
  intro hlen
  have hdvd := tenPow_dvd_of_length_trimZeros_le hlt (Nat.le_of_eq hlen) (Nat.zero_le 9)
  exact hzero (Nat.eq_zero_of_dvd_of_lt hdvd hlt)

theorem scale_pos (hn : n.WellSized) (hzero : parts ≠ 0) (hlt : parts < tenPow 9) :
    0 < n.scale parts := by
  have htrim := length_trimZeros_pos hzero hlt
  have hmax := hn.one_le_maxWidth
  rw [scale, if_neg hzero]
  omega

/-- A value that is `u` above the minimum of a range of `D` values, and the billionths of the range
that this is. -/
structure Portion (r : ValueRange) (x : Int) (u D parts : Nat) : Prop where
  value_eq : x = r.min + u
  span_eq : r.span = D
  lt : u < D
  parts_eq : u * tenPow 9 / D = parts

section

variable {r : ValueRange} {x : Int} {u D : Nat}

theorem exists_portion (hx : x ∈ r) : ∃ u D parts, Portion r x u D parts := by
  obtain ⟨hmin, hmax⟩ := ValueRange.mem_def.1 hx
  have hspan : r.span = r.max - r.min + 1 := rfl
  exact ⟨(x - r.min).toNat, r.span.toNat, _, by omega, by omega, by omega, rfl⟩

theorem Portion.mem (h : Portion r x u D parts) : x ∈ r := by
  obtain ⟨hvalue, hspan, hlt, -⟩ := h
  rw [ValueRange.span] at hspan
  rw [ValueRange.mem_def]
  omega

/-- The billionths are fewer than a billion. -/
theorem Portion.parts_lt (h : Portion r x u D parts) : parts < tenPow 9 := by
  rw [← h.parts_eq, Nat.div_lt_iff_lt_mul (Nat.zero_lt_of_lt h.lt), Nat.mul_comm]
  exact Nat.mul_lt_mul_of_pos_left h.lt (tenPow_pos 9)

theorem Portion.nines_eq (h : Portion r x u D parts) : nines r x = parts := by
  have hscale : fractionScale = (tenPow 9 : Nat) := rfl
  have hoffset : r.min + (u : Int) - r.min = u := by omega
  rw [nines, h.value_eq, h.span_eq, hscale, hoffset, ← Int.natCast_mul, ← Int.natCast_ediv,
    h.parts_eq]

end

/-- The digits that are written of a fraction, the first of its nine. -/
def digits (n : Fraction) (parts : Nat) : List Nat :=
  paddedDigits (n.scale parts) (parts / tenPow (9 - n.scale parts))

def point (n : Fraction) (s : Symbols) : List Char :=
  if n.decimalPoint then [s.decimal] else []

/-- What is written of a fraction: nothing, or its digits behind the point. -/
def written (n : Fraction) (s : Symbols) (parts : Nat) : List Char :=
  if n.scale parts = 0 then [] else n.point s ++ (n.digits parts).map s.digitChar

theorem render_eq (hs : s.Legible) (hn : n.WellSized) {x : Int} {u D : Nat}
    (hx : Portion n.field.range x u D parts) : n.render s x = .ok (n.written s parts) := by
  have hlt := hx.parts_lt
  have hlen := length_zeroPadded_of_lt (by decide) hlt
  simp only [render, hx.nines_eq, not_not.2 hx.mem, if_false, Int.toNat_natCast, hlen,
    Int.natCast_eq_zero, ne_eq, not_true_eq_false, written, digits, point]
  by_cases hzero : parts = 0
  · have hscale : n.scale parts = n.minWidth := if_pos hzero
    rw [if_pos hzero, hscale, hzero, Nat.zero_div]
    by_cases hmin : n.minWidth = 0
    · rw [if_pos hmin, if_pos hmin]
    · have hone : (digitValues 0).length = 1 := rfl
      have hzeros : paddedDigits n.minWidth 0 = List.replicate n.minWidth 0 := by
        obtain ⟨k, hk⟩ := Nat.exists_eq_succ_of_ne_zero hmin
        rw [paddedDigits, hone, hk, Nat.succ_sub_one, List.replicate_succ']
        rfl
      rw [if_neg hmin, if_neg hmin, hzeros, List.map_replicate, Symbols.digitChar_zero]
  · have hpos := scale_pos hn hzero hlt
    have hle := (scale_le hn parts).trans hn.maxWidth_le
    have hscale : min (max (trimZeros (zeroPadded 9 parts)).length n.minWidth) n.maxWidth =
        n.scale parts := (if_neg hzero).symm
    obtain ⟨rest, hrest⟩ := Nat.exists_eq_add_of_le hle
    have htake : (zeroPadded 9 parts).take (n.scale parts) =
        zeroPadded (n.scale parts) (parts / tenPow (9 - n.scale parts)) := by
      rw [hrest] at hlt
      have h := take_zeroPadded hpos hlt
      rwa [← hrest, show rest = 9 - n.scale parts by omega] at h
    rw [if_neg hzero, if_neg (Nat.pos_iff_ne_zero.1 hpos), hscale, htake,
      Symbols.localize_zeroPadded hs]

/-- The value that digits say of a range. -/
def valueOf (r : ValueRange) (run : List Nat) : Int :=
  (ofDigits run : Int) * r.span / tenPow run.length + r.min

/-- What digits say of a range lies in it. -/
theorem valueOf_mem {r : ValueRange} (hr : 0 < r.span) {run : List Nat} (hrun : ∀ d ∈ run, d < 10) :
    valueOf r run ∈ r := by
  have hpos : (0 : Int) < tenPow run.length := Int.ofNat_lt.2 (tenPow_pos _)
  have hlt : (ofDigits run : Int) < tenPow run.length := Int.ofNat_lt.2 (ofDigits_lt hrun)
  have hbelow : (ofDigits run : Int) * r.span / tenPow run.length < r.span := by
    apply Int.ediv_lt_of_lt_mul hpos
    rw [Int.mul_comm r.span]
    exact Int.mul_lt_mul_of_pos_right hlt hr
  have hnonneg : 0 ≤ (ofDigits run : Int) * r.span / tenPow run.length :=
    Int.ediv_nonneg (Int.mul_nonneg (Int.natCast_nonneg _) (Int.le_of_lt hr)) (Int.le_of_lt hpos)
  rw [ValueRange.mem_def, valueOf]
  unfold ValueRange.span at hbelow hnonneg ⊢
  omega

/-- No more than nine digits are read in either mode. -/
theorem ite_maxWidth_le (hn : n.WellSized) (strict : Bool) :
    (if strict then n.maxWidth else 9) ≤ 9 := by
  split
  · exact hn.maxWidth_le
  · exact Nat.le_refl 9

theorem readDigits_eq_ok {least most : Nat} {body : List Char} {r : Reading}
    (h : n.readDigits s least most body = .ok r) :
    ∃ run rest, body = run.map s.digitChar ++ rest ∧ least ≤ run.length ∧ run.length ≤ most ∧
      (∀ d ∈ run, d < 10) ∧ r = .value n.field (valueOf n.field.range run) body rest := by
  obtain ⟨hle, hten, -⟩ := s.digitRun_spec most body
  have hsplit := s.eq_append_of_digitRun most body
  rw [readDigits] at h
  split at h
  · cases h
  · rename_i hlong
    cases h
    exact ⟨_, _, hsplit, Nat.not_lt.1 hlong, hle, hten, rfl⟩

/-- A fraction that is read is missing, where it may have no digits, or it says the value of the
digits behind the point. -/
theorem read_eq_ok {strict : Bool} {text : List Char} {r : Reading}
    (h : n.read s strict text = .ok r) :
    (if strict then n.minWidth else 0) = 0 ∧ r = .skip text ∨
      ∃ run rest, text = n.point s ++ (run.map s.digitChar ++ rest) ∧
        (if strict then n.minWidth else 0) ≤ run.length ∧
        run.length ≤ (if strict then n.maxWidth else 9) ∧ (∀ d ∈ run, d < 10) ∧
        r = .value n.field (valueOf n.field.range run) (run.map s.digitChar ++ rest) rest := by
  obtain ⟨least, hleast⟩ : ∃ least, (if strict then n.minWidth else 0) = least := ⟨_, rfl⟩
  have hmissing : (if 0 < least then .error text else .ok (.skip text)) =
      (.ok r : Except (List Char) Reading) → least = 0 ∧ r = .skip text := by
    intro h
    split at h
    · cases h
    · cases h
      exact ⟨by omega, rfl⟩
  cases text with
  | nil =>
      rw [read, hleast] at h
      exact .inl (hleast ▸ hmissing h)
  | cons c text =>
      rw [read, hleast] at h
      by_cases hpoint : n.decimalPoint = true
      · rw [if_pos hpoint] at h
        by_cases hc : c = s.decimal
        · rw [if_pos hc] at h
          obtain ⟨run, rest, hbody, hlong, hle, hten, hr⟩ := readDigits_eq_ok h
          subst hbody
          refine .inr ⟨run, rest, ?_, hleast.trans_le hlong, hle, hten, hr⟩
          rw [point, if_pos hpoint, hc]
          rfl
        · rw [if_neg hc] at h
          exact .inl (hleast ▸ hmissing h)
      · rw [if_neg hpoint] at h
        obtain ⟨run, rest, hbody, hlong, hle, hten, hr⟩ := readDigits_eq_ok h
        rw [hbody] at hr
        refine .inr ⟨run, rest, ?_, hleast.trans_le hlong, hle, hten, hr⟩
        rw [point, if_neg hpoint]
        exact hbody

/-- Digits are read in front of a text that does not go on with a digit. -/
theorem readDigits_append (hs : s.Legible) {ds : List Nat} (hds : ∀ d ∈ ds, d < 10)
    {least most : Nat} (hleast : least ≤ ds.length) (hmost : ds.length ≤ most) {rest : List Char}
    (hrest : s.EndsDigits rest) :
    n.readDigits s least most (ds.map s.digitChar ++ rest) =
      .ok (.value n.field (valueOf n.field.range ds) (ds.map s.digitChar ++ rest) rest) := by
  have hrun : s.digitRun most (ds.map s.digitChar ++ rest) = ds := by
    rw [← Nat.add_sub_cancel' hmost, Symbols.digitRun_append hs hds,
      Symbols.digitRun_of_endsDigits hrest, List.append_nil]
  have hdrop : (ds.map s.digitChar ++ rest).drop ds.length = rest :=
    List.drop_left' (List.length_map _)
  rw [readDigits, hrun, if_neg (Nat.not_lt.2 hleast), hdrop]
  rfl

/-- A fraction is read in both modes from as many digits as it may write. -/
theorem read_append (hs : s.Legible) (hn : n.WellSized) {ds : List Nat} (hds : ∀ d ∈ ds, d < 10)
    (hne : ds ≠ []) (hmin : n.minWidth ≤ ds.length) (hmax : ds.length ≤ n.maxWidth)
    (strict : Bool) {rest : List Char} (hrest : s.EndsDigits rest) :
    n.read s strict (n.point s ++ ds.map s.digitChar ++ rest) =
      .ok (.value n.field (valueOf n.field.range ds) (ds.map s.digitChar ++ rest) rest) := by
  have hleast : (if strict then n.minWidth else 0) ≤ ds.length := by
    split
    · exact hmin
    · exact Nat.zero_le _
  have hmost : ds.length ≤ if strict then n.maxWidth else 9 := by
    split
    · exact hmax
    · exact hmax.trans hn.maxWidth_le
  have hread := @readDigits_append n s hs ds hds _ _ hleast hmost rest hrest
  cases hpoint : n.decimalPoint with
  | true =>
      rw [point, if_pos hpoint, List.append_assoc, List.singleton_append, read, if_pos hpoint,
        if_pos rfl]
      exact hread
  | false =>
      have hbare : ¬ n.decimalPoint = true := by simp [hpoint]
      obtain ⟨d, ds, rfl⟩ := List.exists_cons_of_ne_nil hne
      rw [point, if_neg hbare, List.nil_append, List.map_cons, List.cons_append, read, if_neg hbare]
      exact hread

theorem le_scale (hn : n.WellSized) (parts : Nat) : n.minWidth ≤ n.scale parts := by
  have hmin := hn.minWidth_le_maxWidth
  rw [scale]
  split
  · exact Nat.le_refl _
  · omega

theorem length_digits (hn : n.WellSized) (hlt : parts < tenPow 9) (hscale : n.scale parts ≠ 0) :
    (n.digits parts).length = n.scale parts := by
  have hle := (scale_le hn parts).trans hn.maxWidth_le
  apply length_paddedDigits_of_lt (Nat.pos_of_ne_zero hscale)
  rwa [Nat.div_lt_iff_lt_mul (tenPow_pos _), ← tenPow_add, Nat.add_sub_cancel' hle]

/-- What is written of a fraction is read in both modes, unless it is nothing. -/
theorem read_written_append (hs : s.Legible) (hn : n.WellSized) (hlt : parts < tenPow 9)
    (hscale : n.scale parts ≠ 0) (strict : Bool) {rest : List Char} (hrest : s.EndsDigits rest) :
    ∃ body, n.read s strict (n.written s parts ++ rest) =
      .ok (.value n.field (valueOf n.field.range (n.digits parts)) body rest) := by
  have hlen := length_digits hn hlt hscale
  have hne : n.digits parts ≠ [] :=
    List.ne_nil_of_length_pos (hlen ▸ Nat.pos_of_ne_zero hscale)
  rw [written, if_neg hscale]
  exact ⟨_, read_append hs hn (fun _ => lt_ten_of_mem_paddedDigits) hne
    ((le_scale hn parts).trans_eq hlen.symm) (hlen.trans_le (scale_le hn parts)) strict hrest⟩

/-- The digits behind those that are written are zeros, unless they are more than may be written. -/
theorem tenPow_dvd_or_scale_eq (hn : n.WellSized) (hlt : parts < tenPow 9) :
    tenPow (9 - n.scale parts) ∣ parts ∨ n.scale parts = n.maxWidth := by
  by_cases hzero : parts = 0
  · exact .inl (hzero ▸ Nat.dvd_zero _)
  have hle := (scale_le hn parts).trans hn.maxWidth_le
  by_cases htrim : (trimZeros (zeroPadded 9 parts)).length ≤ n.scale parts
  · exact .inl (tenPow_dvd_of_length_trimZeros_le hlt htrim hle)
  · right
    rw [scale, if_neg hzero] at htrim ⊢
    omega

section

variable {u D k : Nat}

/-- What the first digits of a fraction say of a range is not above the value that was written. -/
theorem div_mul_div_le (hk : k ≤ 9) (hparts : parts * D ≤ u * tenPow 9) :
    parts / tenPow (9 - k) * D / tenPow k ≤ u := by
  apply Nat.div_le_of_le_mul
  apply Nat.le_of_mul_le_mul_right _ (tenPow_pos (9 - k))
  calc parts / tenPow (9 - k) * D * tenPow (9 - k)
      = parts / tenPow (9 - k) * tenPow (9 - k) * D := Nat.mul_right_comm _ _ _
    _ ≤ parts * D := Nat.mul_le_mul_right D (Nat.div_mul_le_self _ _)
    _ ≤ u * tenPow 9 := hparts
    _ = u * (tenPow k * tenPow (9 - k)) := by rw [← tenPow_add, Nat.add_sub_cancel' hk]
    _ = tenPow k * u * tenPow (9 - k) := by rw [← Nat.mul_assoc, Nat.mul_comm u]

/-- If only zeros are cut off, the first digits say the same as all nine. -/
theorem div_mul_div_of_dvd (hk : k ≤ 9) (hdvd : tenPow (9 - k) ∣ parts) :
    parts / tenPow (9 - k) * D / tenPow k = parts * D / tenPow 9 := by
  obtain ⟨first, rfl⟩ := hdvd
  have hpow : tenPow 9 = tenPow (9 - k) * tenPow k := by rw [← tenPow_add, Nat.sub_add_cancel hk]
  rw [Nat.mul_div_cancel_left _ (tenPow_pos _), hpow, Nat.mul_assoc,
    Nat.mul_div_mul_left _ _ (tenPow_pos _)]

/-- Of at most a billion values nine digits tell the value that was written, if they are all of its
fraction, and else the one before it. -/
theorem mul_div_tenPow_nine (hu : u < D) (hD : D ≤ tenPow 9) :
    u * tenPow 9 / D * D / tenPow 9 = if D ∣ u * tenPow 9 then u else u - 1 := by
  split
  · rename_i hdvd
    rw [Nat.div_mul_cancel hdvd, Nat.mul_div_cancel _ (tenPow_pos 9)]
  · rename_i hdvd
    have hmod : 0 < u * tenPow 9 % D := Nat.pos_of_ne_zero fun h => hdvd (Nat.dvd_of_mod_eq_zero h)
    have hlt : u * tenPow 9 % D < D := Nat.mod_lt _ (Nat.zero_lt_of_lt hu)
    have hdiv : u * tenPow 9 / D * D + u * tenPow 9 % D = u * tenPow 9 := by
      rw [Nat.mul_comm, Nat.div_add_mod]
    generalize u * tenPow 9 / D * D = below, u * tenPow 9 % D = rest at hmod hlt hdiv
    have hsub : (u - 1) * tenPow 9 = u * tenPow 9 - tenPow 9 := Nat.sub_one_mul u _
    rw [Nat.div_eq_iff (tenPow_pos 9), hsub]
    omega

variable {r : ValueRange} {x : Int}

theorem valueOf_digits (hn : n.WellSized) (hx : Portion r x u D parts)
    (hscale : n.scale parts ≠ 0) :
    valueOf r (n.digits parts) =
      r.min + (parts / tenPow (9 - n.scale parts) * D / tenPow (n.scale parts) : Nat) := by
  rw [valueOf, length_digits hn hx.parts_lt hscale, digits, ofDigits_paddedDigits, hx.span_eq,
    Int.add_comm, ← Int.natCast_mul, ← Int.natCast_ediv]

/-- What the digits that are written of a value say is not above the value. -/
theorem valueOf_digits_le (hn : n.WellSized) (hx : Portion r x u D parts)
    (hscale : n.scale parts ≠ 0) : valueOf r (n.digits parts) ≤ x := by
  have hk := (scale_le hn parts).trans hn.maxWidth_le
  have hparts : parts * D ≤ u * tenPow 9 := by
    rw [← hx.parts_eq]
    exact Nat.div_mul_le_self _ _
  rw [valueOf_digits hn hx hscale, hx.value_eq]
  exact Int.add_le_add_left (Int.ofNat_le.2 (div_mul_div_le hk hparts)) r.min

/-- If all nine digits may be written, and the range has no more values than they tell apart, they
say the value if they are all digits of its fraction, and else the one before it. -/
theorem valueOf_nine_digits (hn : n.WellSized) (hmax : n.maxWidth = 9)
    (hx : Portion r x u D parts) (hD : D ≤ tenPow 9) (hscale : n.scale parts ≠ 0) :
    valueOf r (n.digits parts) = if D ∣ u * tenPow 9 then x else x - 1 := by
  have hk := (scale_le hn parts).trans hn.maxWidth_le
  have hdvd : tenPow (9 - n.scale parts) ∣ parts := by
    rcases tenPow_dvd_or_scale_eq hn hx.parts_lt with h | h
    · exact h
    · rw [h, hmax]
      exact Nat.one_dvd parts
  rw [valueOf_digits hn hx hscale, div_mul_div_of_dvd hk hdvd, ← hx.parts_eq,
    mul_div_tenPow_nine hx.lt hD, hx.value_eq]
  split
  · rfl
  · rename_i hwhole
    have hpos : u ≠ 0 := by
      rintro rfl
      exact hwhole (Nat.zero_mul (tenPow 9) ▸ Nat.dvd_zero D)
    omega

end

end Fraction

end DateTimeText
