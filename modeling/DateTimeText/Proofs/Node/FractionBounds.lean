import DateTimeText.Proofs.Node.FractionRoundTrip
import DateTimeText.Proofs.Text.DigitSums

/-!
# Fractions within their ranges

No text of a fraction says a value that is out of range, and no value of the range has more than
nine digits of a fraction. What is found on the way needs no more than 128 bits, for ranges of up to
all integers of 64 bits. So the branches that look for a longer fraction or for a value of more than
64 bits are never taken.
-/

namespace DateTimeText

namespace ValueRange

/-- A range of integers of 64 bits, which has a value. -/
structure Within64 (r : ValueRange) : Prop where
  min_le_max : r.min ≤ r.max
  le_min : int64Min ≤ r.min
  max_le : r.max ≤ int64Max

variable {r : ValueRange}

/-- The number of values of a range, found in 128 bits. -/
def span128? (r : ValueRange) : Option Int := do
  inInt128? ((← inInt128? (r.max - r.min)) + 1)

theorem Within64.span_bounds (h : r.Within64) : 0 < r.span ∧ r.span ≤ 18446744073709551616 := by
  obtain ⟨hle, hmin, hmax⟩ := h
  unfold span
  unfold int64Min at hmin
  unfold int64Max at hmax
  omega

theorem Within64.span128?_eq (h : r.Within64) : r.span128? = some r.span := by
  obtain ⟨hpos, hle⟩ := h.span_bounds
  unfold span at hpos hle ⊢
  have hwidth : FitsInt128 (r.max - r.min) := ⟨by omega, by omega⟩
  have hspan : FitsInt128 (r.max - r.min + 1) := ⟨by omega, by omega⟩
  rw [span128?, inInt128?_eq_some hwidth]
  exact inInt128?_eq_some hspan

/-- The values of a range of integers of 64 bits are some. -/
theorem Within64.fits (h : r.Within64) {x : Int} (hx : x ∈ r) : FitsInt64 x :=
  ⟨Int.le_trans h.le_min hx.1, Int.le_trans hx.2 h.max_le⟩

end ValueRange

theorem Field.within64_range (f : Field) : f.range.Within64 := by
  cases f <;> exact ⟨by decide, by decide, by decide⟩

namespace Fraction

variable {r : ValueRange} {run : List Nat} {x : Int}

/-- The value that digits say of a range, found in 128 bits, if it has 64. -/
def value128? (r : ValueRange) (run : List Nat) : Option Int := do
  let total ← ofDigits128? run
  let span ← r.span128?
  let scaled ← inInt128? (total * span)
  let unit ← inInt128? (tenPow run.length)
  let offset ← inInt128? (scaled.tdiv unit)
  let value ← inInt128? (offset + r.min)
  inInt64? value

theorem value128?_eq (hr : r.Within64) (hrun : ∀ d ∈ run, d < 10) (hlen : run.length ≤ 9) :
    value128? r run = some (valueOf r run) := by
  obtain ⟨hpos, hspan⟩ := hr.span_bounds
  have hmem := valueOf_mem hpos hrun
  obtain ⟨hmin, hmax⟩ := hr.fits hmem
  obtain ⟨offset, hoffset⟩ :
      ∃ offset, (ofDigits run : Int) * r.span / tenPow run.length = offset := ⟨_, rfl⟩
  have hvalue : valueOf r run = offset + r.min := by rw [valueOf, hoffset]
  -- A billion fractions of as many values as 64 bits can count are far below 128 bits.
  have hunit : tenPow run.length ≤ 1000000000 := tenPow_le_tenPow hlen
  have htotal : ofDigits run < 1000000000 := ofDigits_lt_of_length_le hrun hlen
  have hnonneg : 0 ≤ (ofDigits run : Int) * r.span :=
    Int.mul_nonneg (Int.natCast_nonneg _) (Int.le_of_lt hpos)
  have hle : (ofDigits run : Int) * r.span ≤ 1000000000 * 18446744073709551616 :=
    Int.mul_le_mul (by omega) hspan (Int.le_of_lt hpos) (by decide)
  have hscaled : FitsInt128 ((ofDigits run : Int) * r.span) := ⟨by omega, by omega⟩
  have hunit128 : FitsInt128 (tenPow run.length) := ⟨by omega, by omega⟩
  have hvalue128 : FitsInt128 (offset + r.min) := by
    rw [← hvalue]
    unfold int64Min at hmin
    unfold int64Max at hmax
    exact ⟨by omega, by omega⟩
  have hoffset128 : FitsInt128 offset := by
    rw [hvalue, ValueRange.mem_def] at hmem
    unfold ValueRange.span at hspan
    exact ⟨by omega, by omega⟩
  rw [value128?, ofDigits128?_eq hrun (hlen.trans (by decide)), hr.span128?_eq]
  simp only [Option.bind_eq_bind, Option.bind_some]
  rw [inInt128?_eq_some hscaled, Option.bind_some, inInt128?_eq_some hunit128, Option.bind_some,
    Int.tdiv_eq_ediv_of_nonneg hnonneg, hoffset, inInt128?_eq_some hoffset128, Option.bind_some,
    inInt128?_eq_some hvalue128, Option.bind_some, ← hvalue, inInt64?_eq_some ⟨hmin, hmax⟩]

/-- The nine digits of a fraction, found in 128 bits. -/
def nines128? (r : ValueRange) (x : Int) : Option Int := do
  let span ← r.span128?
  let offset ← inInt128? (x - r.min)
  let scaled ← inInt128? (offset * fractionScale)
  inInt128? (scaled.tdiv span)

theorem nines128?_eq (hr : r.Within64) {u D parts : Nat} (hx : Portion r x u D parts) :
    nines128? r x = some (parts : Int) := by
  obtain ⟨hpos, hspan⟩ := hr.span_bounds
  have hu : (u : Int) < r.span := hx.span_eq ▸ Int.ofNat_lt.2 hx.lt
  have hoffset : x - r.min = u := by
    have := hx.value_eq
    omega
  have hnine : tenPow 9 = 1000000000 := rfl
  have hparts := hx.parts_lt
  have hnines := hx.nines_eq
  rw [nines, hoffset, fractionScale] at hnines
  have hoffset128 : FitsInt128 u := ⟨by omega, by omega⟩
  have hscaled : FitsInt128 ((u : Int) * 1000000000) := ⟨by omega, by omega⟩
  have hparts128 : FitsInt128 parts := ⟨by omega, by omega⟩
  rw [nines128?, hr.span128?_eq, hoffset, fractionScale]
  simp only [Option.bind_eq_bind, Option.bind_some]
  rw [inInt128?_eq_some hoffset128, Option.bind_some, inInt128?_eq_some hscaled, Option.bind_some,
    Int.tdiv_eq_ediv_of_nonneg (by omega), hnines, inInt128?_eq_some hparts128]

variable {n : Fraction} {s : Symbols} {strict : Bool} {u D parts : Nat}

theorem exists_render_of_mem (hx : Portion n.field.range x u D parts) (s : Symbols) :
    ∃ text, n.render s x = .ok text := by
  have hlen := length_zeroPadded_of_lt (by decide) hx.parts_lt
  simp only [render, hx.nines_eq, not_not.2 hx.mem, if_false, Int.toNat_natCast, hlen, ne_eq,
    not_true_eq_false]
  split
  · exact ⟨_, rfl⟩
  · exact ⟨_, rfl⟩

/-- Nothing is written of values that have no billionth, if none of its digits has to be. -/
theorem eq_zero_of_scale_eq_zero (hn : n.WellSized) (hlt : parts < tenPow 9)
    (hscale : n.scale parts = 0) : n.minWidth = 0 ∧ parts = 0 := by
  have hmin := le_scale hn parts
  refine ⟨by omega, Decidable.byContradiction fun hzero => ?_⟩
  exact Nat.ne_of_gt (scale_pos hn hzero hlt) hscale

/-- Where nothing was written, nothing is read, or the minimum from no digits. -/
theorem read_of_endsDigits (hmin : n.minWidth = 0) {rest : List Char} (hrest : s.EndsDigits rest)
    (hpoint : n.decimalPoint = true → rest.head? ≠ some s.decimal) :
    n.read s strict rest = .ok (.skip rest) ∨
      n.read s strict rest = .ok (.value n.field n.field.range.min rest rest) := by
  have hleast : (if strict then n.minWidth else 0) = 0 := by rw [hmin, ite_self]
  cases rest with
  | nil =>
      left
      rw [read, hleast]
      rfl
  | cons c rest =>
      rw [read, hleast]
      by_cases hdecimal : n.decimalPoint = true
      · have hc : c ≠ s.decimal := fun hc => hpoint hdecimal (congrArg some hc)
        left
        rw [if_pos hdecimal, if_neg hc]
        rfl
      · right
        rw [if_neg hdecimal, readDigits, Symbols.digitRun_of_endsDigits hrest]
        simp [tenPow]

/-- What is written of a value and read again is not above the value. -/
theorem read_written_cases (hs : s.Legible) (hn : n.WellSized)
    (hx : Portion n.field.range x u D parts) {rest : List Char} (hrest : s.EndsDigits rest)
    (hpoint : n.written s parts = [] → n.decimalPoint = true → rest.head? ≠ some s.decimal) :
    (n.written s parts = [] ∧ n.read s strict rest = .ok (.skip rest)) ∨
      ∃ y body, n.read s strict (n.written s parts ++ rest) =
        .ok (.value n.field y body rest) ∧ y ≤ x ∧
          (D ≤ tenPow 9 → n.maxWidth = 9 → x - 1 ≤ y) := by
  by_cases hscale : n.scale parts = 0
  · have hnothing : n.written s parts = [] := if_pos hscale
    obtain ⟨hmin, hzero⟩ := eq_zero_of_scale_eq_zero hn hx.parts_lt hscale
    rw [hnothing, List.nil_append]
    rcases read_of_endsDigits hmin hrest (hpoint hnothing) with hskip | hleast
    · exact .inl ⟨rfl, hskip⟩
    · refine .inr ⟨_, _, hleast, hx.mem.1, fun hD _ => ?_⟩
      have hparts := hx.parts_eq
      have hvalue := hx.value_eq
      have hlt := hx.lt
      rw [hzero, Nat.div_eq_zero_iff] at hparts
      simp only [tenPow] at hD hparts
      omega
  · obtain ⟨body, hread⟩ := read_written_append hs hn hx.parts_lt hscale strict hrest
    refine .inr ⟨_, _, hread, valueOf_digits_le hn hx hscale, fun hD hmax => ?_⟩
    rw [valueOf_nine_digits hn hmax hx hD hscale]
    split <;> omega

end Fraction

namespace Node

variable {n : Fraction} {f : Field} {minWidth maxWidth : Nat} {decimalPoint : Bool}

/-- In both modes a fraction stores nothing, or a value that digits of the text say of its range. -/
theorem stored_by_fraction (hn : n.WellSized) (s : Settings) (c : Context) (text : List Char) :
    ((leaf (.fraction n)).parse s c text).1 = c ∨
      ∃ front run rest x, text = front ++ (List.map s.symbols.digitChar run ++ rest) ∧
        ((leaf (.fraction n)).parse s c text).1 = { c with current := c.current.set n.field x } ∧
        x ∈ n.field.range ∧ Fraction.value128? n.field.range run = some x := by
  have hrange := n.field.within64_range
  rw [parse_leaf, Leaf.read]
  cases h : n.read s.symbols c.mode.strict text with
  | error stop => exact .inl rfl
  | ok r =>
      rcases Fraction.read_eq_ok h with ⟨-, rfl⟩ | ⟨run, rest, htext, -, hle, hten, rfl⟩
      · exact .inl rfl
      · have hlen := hle.trans (Fraction.ite_maxWidth_le hn c.mode.strict)
        rw [Context.storeResult_value_eq]
        exact .inr ⟨_, run, rest, _, htext, rfl, Fraction.valueOf_mem hrange.span_bounds.1 hten,
          Fraction.value128?_eq hrange hten hlen⟩

/-- Fractions say values of their ranges only. These are found from the digits, and the digits from
a value, without leaving 128 bits, and there are no more than nine of them. In both modes what is
printed of a value, in front of a text that does not go on with a digit, nor with the point if
nothing is printed, is stored as a value that is not above it; and it is at most one below it if the
range has at most a billion values and all nine digits may be printed. -/
theorem parse_fraction_within (hn : Fraction.of f minWidth maxWidth decimalPoint = .ok n) :
    (∀ run : List Nat, run.length ≤ 9 → (∀ d ∈ run, d < 10) →
      ∃ x ∈ f.range, Fraction.value128? f.range run = some x) ∧
    (∀ (s : Settings) (c : Context) (text : List Char),
      ((leaf (.fraction n)).parse s c text).1 = c ∨
        ∃ front run rest x, text = front ++ (List.map s.symbols.digitChar run ++ rest) ∧
          ((leaf (.fraction n)).parse s c text).1 = { c with current := c.current.set f x } ∧
          x ∈ f.range ∧ Fraction.value128? f.range run = some x) ∧
    (∀ x ∈ f.range, ∃ parts : Nat, Fraction.nines128? f.range x = some (parts : Int) ∧
      Fraction.nines f.range x = parts ∧ (zeroPadded 9 parts).length = 9 ∧
      ∀ s, ∃ text, n.render s x = .ok text) ∧
    ∀ s : Settings, s.symbols.Legible → ∀ x ∈ f.range,
      ∃ text, Prints s (leaf (.fraction n)) f x text ∧
        ∀ (c : Context) (rest : List Char), s.symbols.EndsDigits rest →
          (text = [] → decimalPoint = true → rest.head? ≠ some s.symbols.decimal) →
          (text = [] ∧ (leaf (.fraction n)).parse s c rest = (c, .ok rest)) ∨
            ∃ y body, (leaf (.fraction n)).parse s c (text ++ rest) =
                ({ c with current := c.current.set f y },
                  if (c.current.field f).all (· == y) then .ok rest else .error body) ∧
              y ≤ x ∧ (f.range.span ≤ 1000000000 → maxWidth = 9 → x - 1 ≤ y) := by
  obtain ⟨rfl, hsized⟩ := Fraction.of_eq_ok hn
  have hrange := f.within64_range
  refine ⟨?digits, ?parse, ?nines, ?reread⟩
  case digits =>
    intro run hlen hten
    exact ⟨_, Fraction.valueOf_mem hrange.span_bounds.1 hten,
      Fraction.value128?_eq hrange hten hlen⟩
  case parse => exact stored_by_fraction hsized
  case nines =>
    intro x hx
    obtain ⟨u, D, parts, hportion⟩ := Fraction.exists_portion hx
    exact ⟨parts, Fraction.nines128?_eq hrange hportion, hportion.nines_eq,
      length_zeroPadded_of_lt (by decide) hportion.parts_lt,
      Fraction.exists_render_of_mem hportion⟩
  case reread =>
    intro s hs x hx
    obtain ⟨u, D, parts, hportion⟩ := Fraction.exists_portion hx
    refine ⟨_, prints_written hs hsized hportion, fun c rest hrest hpoint => ?_⟩
    rw [parse_leaf, parse_leaf, Leaf.read, Leaf.read]
    rcases Fraction.read_written_cases hs hsized hportion hrest hpoint with
      ⟨hnothing, hskip⟩ | ⟨y, body, hread, hle, hnear⟩
    · rw [hskip]
      exact .inl ⟨hnothing, rfl⟩
    · rw [hread, Context.storeResult_value_eq]
      exact .inr ⟨y, body, rfl, hle,
        fun hspan hmax => hnear (Int.ofNat_le.1 (hportion.span_eq ▸ hspan)) hmax⟩

/-- All integers of 64 bits are seconds of instants. Nine nines say one of them, and the least of
them is printed. -/
theorem parse_fraction_within_instant :
    let n : Fraction := ⟨.instantSeconds, 0, 9, true⟩
    Fraction.of .instantSeconds 0 9 true = .ok n ∧
      (∃ x ∈ Field.instantSeconds.range,
        Fraction.value128? Field.instantSeconds.range (List.replicate 9 9) = some x) ∧
      ∃ text, Prints .root (leaf (.fraction n)) .instantSeconds int64Min text := by
  intro n
  have hn : Fraction.of .instantSeconds 0 9 true = .ok n := rfl
  obtain ⟨hdigits, -, -, hreread⟩ := parse_fraction_within hn
  obtain ⟨text, hprints, -⟩ := hreread .root Symbols.standard_legible int64Min (by decide)
  exact ⟨hn, hdigits (List.replicate 9 9) (by decide) (by decide), text, hprints⟩

end Node

end DateTimeText
