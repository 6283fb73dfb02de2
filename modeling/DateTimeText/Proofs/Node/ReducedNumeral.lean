import DateTimeText.Proofs.Builder.Numbers
import DateTimeText.Proofs.Node.Canonical
import DateTimeText.Proofs.Text.DigitSums

/-!
# Reduced numbers

A reduced number is written as the last digits of its value and is read, in both modes, from exactly
as many digits. Values of a window above zero, and values up to zero, are found again from what is
written of them.
-/

namespace DateTimeText

namespace Window

variable {w : Window} {d : Nat}

/-- What `decode` gives, found in 64 bits: nothing if a step needs more. -/
def decode64? (w : Window) (v : Int) : Option Int := do
  let last ← inInt64? (w.base.tmod w.span)
  let start ← inInt64? (w.base - last)
  let value ← inInt64? (if 0 < w.base then start + v else start - v)
  if value < w.base then inInt64? (value + w.span) else return value

/-- No step from the digits to the value needs more than 64 bits. -/
theorem decode64?_eq (hbase : -2147483648 ≤ w.base) (hmax : w.base + w.span ≤ 2147483647)
    (hd : (d : Int) < w.span) : w.decode64? d = some (w.decode d) := by
  have hfits : ∀ {n : Int}, -10000000000 ≤ n → n ≤ 10000000000 → inInt64? n = some n := by
    intro n hlow hhigh
    apply inInt64?_eq_some
    unfold FitsInt64 int64Min int64Max
    omega
  have hspan : 0 < w.span := by omega
  have hstart : -2147483648 ≤ w.start ∧ w.start ≤ 2147483647 := by
    by_cases hpos : 0 < w.base
    · have := start_of_pos hspan hpos
      omega
    · have := start_of_nonpos hspan (Int.not_lt.1 hpos)
      omega
  have hlast : w.base.tmod w.span = w.base - w.start := by rw [start]; omega
  have hmem := decode_mem hd
  rw [decode_eq] at hmem ⊢
  rw [decode64?, hlast, hfits (by omega) (by omega), Option.bind_eq_bind, Option.bind_some,
    Int.sub_sub_self, hfits (by omega) (by omega), Option.bind_some]
  generalize hvalue : (if 0 < w.base then w.start + (d : Int) else w.start - d) = value at hmem ⊢
  have hbounds : -10000000000 ≤ value ∧ value ≤ 10000000000 := by
    split at hvalue <;> omega
  rw [hfits hbounds.1 hbounds.2, Option.bind_some]
  split
  · rw [hfits (by omega) (by omega)]
  · rfl

end Window

namespace Numeral

variable {n : Numeral} {f : Field} {width : Nat} {base : Int} {s : Symbols} {text : List Char}

theorem hasWidth_of_reduced (hn : reduced f width base = .ok n) : n.HasWidth width := by
  obtain ⟨hwidth, rfl⟩ := reduced_eq_ok hn
  exact ⟨hwidth.1, hwidth.2, rfl, rfl, rfl, rfl⟩

theorem window_of_reduced (hn : reduced f width base = .ok n) :
    n.field = f ∧ n.window = some ⟨base, tenPow width⟩ := by
  obtain ⟨-, rfl⟩ := reduced_eq_ok hn
  exact ⟨rfl, rfl⟩

/-- A reduced number is read in lenient mode as it is in strict mode. -/
theorem read_reduced (hn : reduced f width base = .ok n) (strict : Bool) :
    n.read s strict text = n.read s true text := by
  obtain ⟨-, rfl⟩ := reduced_eq_ok hn
  cases text with
  | nil => rfl
  | cons c rest =>
      simp [read, readDigits, plain, keepsWidth, SignStyle.admits]

theorem head?_of_read_reduced (hn : reduced f width base = .ok n) {r : Reading}
    (h : n.read s true text = .ok r) :
    ∀ c ∈ text.head?, c ≠ s.positive ∧ c ≠ s.negative := by
  have hsign := (hasWidth_of_reduced hn).sign_eq
  cases text with
  | nil => cases h
  | cons c rest =>
      rintro d ⟨⟩
      simp only [read, hsign, SignStyle.admits, Bool.not_true, Bool.false_and, Bool.false_eq_true,
        if_false] at h
      constructor
      · rintro rfl
        rw [if_pos rfl] at h
        cases h
      · rintro rfl
        split at h
        · cases h
        · rw [if_pos rfl] at h
          cases h

/-- A reduced number is refused where it starts. -/
theorem eq_of_read_reduced_eq_error (hn : reduced f width base = .ok n) {stop : List Char}
    (h : n.read s true text = .error stop) : stop = text := by
  obtain ⟨-, rfl⟩ := reduced_eq_ok hn
  cases text with
  | nil => exact (Except.error.inj h).symm
  | cons c rest =>
      simp [read, readDigits, plain, SignStyle.admits] at h
      split_ifs at h
      all_goals exact (Except.error.inj h).symm

/-- What is written of a value are its last digits. -/
theorem render_reduced (hn : reduced f width base = .ok n) (hs : s.Legible) (x : Int) :
    n.render s x = .ok ((paddedDigits width (Window.lastDigits ⟨base, tenPow width⟩ x)).map
      s.digitChar) := by
  have hw := hasWidth_of_reduced hn
  have hshown : n.shown x = (Window.lastDigits ⟨base, tenPow width⟩ x : Nat) := by
    rw [shown, (window_of_reduced hn).2]
    rfl
  have hlt := Window.lastDigits_lt_tenPow base width x
  rw [render_fixed hs hw.pos hw.minWidth_eq hw.maxWidth_eq hw.sign_eq, hshown, Int.natAbs_natCast,
    if_neg (by omega), if_neg (by omega)]

theorem render_reduced_eq_iff (hn : reduced f width base = .ok n) (hs : s.Legible) {x : Int}
    {ds : List Nat} (hlen : ds.length = width) (hds : ∀ d ∈ ds, d < 10) :
    n.render s x = .ok (ds.map s.digitChar) ↔
      Window.lastDigits ⟨base, tenPow width⟩ x = ofDigits ds := by
  have hw := hasWidth_of_reduced hn
  have hne : ds ≠ [] := List.ne_nil_of_length_pos (hlen ▸ hw.pos)
  rw [render_reduced hn hs]
  constructor
  · intro h
    have hdigits := Symbols.map_digitChar_inj hs (fun _ => lt_ten_of_mem_paddedDigits) hds
      (Except.ok.inj h)
    rw [← hdigits, ofDigits_paddedDigits]
  · intro h
    rw [h, ← hlen, paddedDigits_ofDigits hne hds]

theorem decode_reduced (hn : reduced f width base = .ok n) (v : Int) :
    n.decode v = Window.decode ⟨base, tenPow width⟩ v := by
  rw [decode, (window_of_reduced hn).2]

end Numeral

namespace Node

variable {n : Numeral} {f : Field} {width : Nat} {base : Int}

theorem stores_reduced (hn : Numeral.reduced f width base = .ok n) {s : Settings}
    (hs : s.symbols.Legible) {ds : List Nat} (hlen : ds.length = width) (hds : ∀ d ∈ ds, d < 10) :
    Stores s (leaf (.numeral n)) (ds.map s.symbols.digitChar) f
      (Window.decode ⟨base, tenPow width⟩ (ofDigits ds)) := by
  intro c hstrict hc rest
  have hread := (Numeral.hasWidth_of_reduced hn).read_append hs hlen hds rest
  rw [(Numeral.window_of_reduced hn).1, Numeral.decode_reduced hn] at hread
  rw [parse_leaf, Leaf.read, hstrict, hread]
  exact Context.storeResult_value hc _ rest

theorem print_reduced (hn : Numeral.reduced f width base = .ok n) {s : Settings} {x : Int}
    {text : List Char} (h : n.render s.symbols x = .ok text) :
    Prints s (leaf (.numeral n)) f x text := by
  refine prints_of_render fun v hv => ?_
  rw [Leaf.render, (Numeral.window_of_reduced hn).1, hv, Leaf.renderField, h]

theorem prints_reduced_iff (hn : Numeral.reduced f width base = .ok n) {s : Settings}
    (hs : s.symbols.Legible) {x : Int} {text : List Char} :
    Prints s (leaf (.numeral n)) f x text ↔ n.render s.symbols x = .ok text := by
  refine ⟨fun h => ?_, print_reduced hn⟩
  have hrender := Numeral.render_reduced hn hs x
  have hv : (Components.empty.set f x).field f = some x := if_pos rfl
  have hboth := (print_reduced hn hrender _ hv []).symm.trans (h _ hv [])
  rw [hrender, List.append_cancel_left (Prod.mk.inj hboth).1]

/-- Values of a window above zero, and values from a base up to zero, are stored again from the
digits that are printed for them. Digits that are printed for such values are stored as the least
value from the base on that they are printed for. -/
theorem parse_print_reduced (hn : Numeral.reduced f width base = .ok n) {s : Settings}
    (hs : s.symbols.Legible) :
    (∀ x, base ≤ x → x < base + tenPow width → 0 < base ∨ x ≤ 0 →
      ∃ text, Prints s (leaf (.numeral n)) f x text ∧ Stores s (leaf (.numeral n)) text f x) ∧
    ∀ ds : List Nat, ds.length = width → (∀ d ∈ ds, d < 10) →
      (0 < base ∨ ∃ x, base ≤ x ∧ x ≤ 0 ∧
        Prints s (leaf (.numeral n)) f x (ds.map s.symbols.digitChar)) →
      ∃ y, IsLeast {x | base ≤ x ∧
          Prints s (leaf (.numeral n)) f x (ds.map s.symbols.digitChar)} y ∧
        Stores s (leaf (.numeral n)) (ds.map s.symbols.digitChar) f y := by
  constructor
  · intro x hle hlt hx
    have hlen : (paddedDigits width (Window.lastDigits ⟨base, tenPow width⟩ x)).length = width :=
      length_paddedDigits_of_lt (Numeral.hasWidth_of_reduced hn).pos
        (Window.lastDigits_lt_tenPow base width x)
    have hstores := stores_reduced hn hs hlen fun _ => lt_ten_of_mem_paddedDigits
    rw [ofDigits_paddedDigits, Window.decode_lastDigits hle hlt hx] at hstores
    exact ⟨_, print_reduced hn (Numeral.render_reduced hn hs x), hstores⟩
  · intro ds hlen hds hside
    have hprints : ∀ x, Prints s (leaf (.numeral n)) f x (ds.map s.symbols.digitChar) ↔
        Window.lastDigits ⟨base, tenPow width⟩ x = ofDigits ds := fun x =>
      (prints_reduced_iff hn hs).trans (Numeral.render_reduced_eq_iff hn hs hlen hds)
    simp only [hprints] at hside ⊢
    exact ⟨_, Window.isLeast_decode (Int.ofNat_lt.2 (hlen ▸ ofDigits_lt hds)) hside,
      stores_reduced hn hs hlen hds⟩

/-- A year before the common era is stored again from its last two digits. -/
theorem parse_print_reduced_before_era :
    let n : Numeral := { Numeral.plain .year 2 2 .notNegative with window := some ⟨-1999, 100⟩ }
    (Numeral.reduced .year 2 (-1999) = .ok n ∧ Settings.root.symbols.Legible) ∧
      (∃ text, Prints .root (leaf (.numeral n)) .year (-1912) text ∧
        Stores .root (leaf (.numeral n)) text .year (-1912)) ∧
      ∃ y, IsLeast {x | -1999 ≤ x ∧ Prints .root (leaf (.numeral n)) .year x ['1', '2']} y ∧
        Stores .root (leaf (.numeral n)) ['1', '2'] .year y := by
  intro n
  have hn : Numeral.reduced .year 2 (-1999) = .ok n := rfl
  have hs : Settings.root.symbols.Legible := Symbols.standard_legible
  obtain ⟨hvalues, hdigits⟩ := parse_print_reduced hn hs
  have hprints : Prints .root (leaf (.numeral n)) .year (-1912) ['1', '2'] :=
    print_reduced hn
      ((Numeral.render_reduced_eq_iff hn hs (rfl : [1, 2].length = 2) (by decide)).2 rfl)
  exact ⟨⟨hn, hs⟩, hvalues (-1912) (by decide) (by decide) (.inr (by decide)),
    hdigits [1, 2] rfl (by decide) (.inr ⟨-1912, by decide, by decide, hprints⟩)⟩

/-- In a window around zero the digit of a year after zero is that of a year before it, which it is
stored as. -/
theorem three_stored_as_minus_three :
    let n : Numeral := { Numeral.plain .year 1 1 .notNegative with window := some ⟨-5, 10⟩ }
    let c : Context := ⟨Mode.initial, .empty, []⟩
    Numeral.reduced .year 1 (-5) = .ok n ∧ (-5 ≤ (3 : Int) ∧ 3 < -5 + (tenPow 1 : Int)) ∧
      (leaf (.numeral n)).print .root (Components.empty.set .year 3) [] = (['3'], .ok true) ∧
      c.mode.strict = true ∧
      (leaf (.numeral n)).parse .root c ['3'] =
        ({ c with current := Components.empty.set .year (-3) }, .ok []) :=
  ⟨rfl, by decide, rfl, rfl, rfl⟩

/-- In both modes a reduced number takes exactly its digits, or nothing, and gives a value of its
window. It is in the range of its field if the window is, and it is found without leaving 64
bits. -/
theorem parse_reduced_within (hn : Numeral.reduced f width base = .ok n)
    (hbase : -2147483648 ≤ base) (s : Settings) (c : Context) (text : List Char) :
    (leaf (.numeral n)).parse s c text = (c, .error text) ∨
      ∃ ds x rest, (ds.length = width ∧ (∀ d ∈ ds, d < 10) ∧
          text = ds.map s.symbols.digitChar ++ rest ∧
          ∀ a ∈ text.head?, a ≠ s.symbols.positive ∧ a ≠ s.symbols.negative) ∧
        (leaf (.numeral n)).parse s c text =
          ({ c with current := c.current.set f x },
            if (c.current.field f).all (· == x) then .ok rest else .error text) ∧
        (base ≤ x ∧ x < base + tenPow width) ∧
        (base + tenPow width - 1 ≤ f.range.max → f.range.check f x = .ok x) ∧
        ofDigitsSaturating ds = ofDigits ds ∧ FitsInt64 (ofDigits ds) ∧
        Window.decode64? ⟨base, tenPow width⟩ (ofDigits ds) = some x := by
  have hw := Numeral.hasWidth_of_reduced hn
  obtain ⟨-, hrange, hmax, -⟩ := Numeral.reduced_eq_ok_iff.1 hn
  rw [parse_leaf, Leaf.read, Numeral.read_reduced hn]
  cases hread : n.read s.symbols true text with
  | error stop =>
      rw [Numeral.eq_of_read_reduced_eq_error hn hread]
      exact .inl rfl
  | ok r =>
      obtain ⟨ds, rest, hlen, hds, htext, rfl⟩ := hw.read_eq_ok hread
      rw [(Numeral.window_of_reduced hn).1, Numeral.decode_reduced hn,
        Context.storeResult_value_eq]
      have hd : (ofDigits ds : Int) < tenPow width := Int.ofNat_lt.2 (hlen ▸ ofDigits_lt hds)
      have hmem : base ≤ Window.decode ⟨base, tenPow width⟩ (ofDigits ds) ∧
          Window.decode ⟨base, tenPow width⟩ (ofDigits ds) < base + tenPow width :=
        Window.decode_mem hd
      have hle := hw.le
      refine .inr ⟨ds, _, rest, ⟨hlen, hds, htext, Numeral.head?_of_read_reduced hn hread⟩, rfl,
        hmem, ?range, ofDigitsSaturating_eq hds (by omega), hw.fits hlen hds,
        Window.decode64?_eq hbase hmax hd⟩
      case range =>
        intro hfield
        rw [ValueRange.mem_def] at hrange
        exact if_pos ⟨by omega, by omega⟩

/-- In lenient mode a month is read into a window around zero, and no further than its digit. -/
theorem parse_reduced_within_around_zero :
    let n : Numeral := { Numeral.plain .prolepticMonth 1 1 .notNegative with window := some ⟨-5, 10⟩ }
    let c : Context := ⟨{ Mode.initial with strict := false }, .empty, []⟩
    (Numeral.reduced .prolepticMonth 1 (-5) = .ok n ∧ (-2147483648 : Int) ≤ -5) ∧
      ∃ (ds : List Nat) (x : Int) (rest : List Char),
        (ds.length = 1 ∧ ['7', '7'] = ds.map Symbols.standard.digitChar ++ rest) ∧
        (leaf (.numeral n)).parse .root c ['7', '7'] =
          ({ c with current := c.current.set .prolepticMonth x }, .ok rest) ∧
        -5 ≤ x ∧ x < 5 := by
  intro n c
  have hn : Numeral.reduced .prolepticMonth 1 (-5) = .ok n := rfl
  have hbase : (-2147483648 : Int) ≤ -5 := by decide
  refine ⟨⟨hn, hbase⟩, ?_⟩
  rcases parse_reduced_within hn hbase .root c ['7', '7'] with h | h
  · exact absurd (congrArg (·.2.toOption) h) (by decide)
  · obtain ⟨ds, x, rest, ⟨hlen, -, htext, -⟩, hparse, hmem, -⟩ := h
    exact ⟨ds, x, rest, ⟨hlen, htext⟩, hparse, hmem⟩

end Node

end DateTimeText
