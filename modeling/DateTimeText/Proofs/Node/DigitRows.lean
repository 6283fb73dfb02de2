import DateTimeText.Proofs.Node.Canonical

/-!
# Rows of digits

A number of a fixed width and a fraction of a second write a row of digits, and read no fewer. A
number of variable width in front of them leaves the digits that it reserves. If more follow, it
takes some of theirs, and the row ends before all of them are read.
-/

namespace DateTimeText

theorem natAbs_tdiv_of_not_fitsInt64 {v : Int} (h : ¬ FitsInt64 v) :
    922337203685477580 ≤ (v.tdiv 10).natAbs := by
  rw [Int.natAbs_tdiv]
  change 922337203685477580 ≤ v.natAbs / 10
  unfold FitsInt64 int64Min int64Max at h
  omega

/-- No field but that of instants has values that long. -/
theorem Field.natAbs_lt_of_mem_range {f : Field} (hf : f ≠ .instantSeconds) {x : Int}
    (hx : x ∈ f.range) : x.natAbs < 922337203685477580 := by
  rw [ValueRange.mem_def] at hx
  cases f with
  | instantSeconds => exact absurd rfl hf
  | _ =>
      simp only [Field.range, ValueRange.fixed, ValueRange.variableMax] at hx
      omega

theorem Symbols.digitRun_map_digitChar {s : Symbols} (hs : s.Legible) {ds : List Nat}
    (hds : ∀ d ∈ ds, d < 10) (limit : Nat) :
    s.digitRun limit (ds.map s.digitChar) = ds.take limit := by
  by_cases hle : ds.length ≤ limit
  · have hend : s.EndsDigits [] := nofun
    have hrun := digitRun_append hs hds (limit - ds.length) []
    rw [List.append_nil, digitRun_of_endsDigits hend, List.append_nil,
      Nat.add_sub_cancel' hle] at hrun
    rw [hrun, List.take_of_length_le hle]
  · have hlen : (ds.take limit).length = limit := by
      rw [List.length_take]
      omega
    have htake : ∀ d ∈ ds.take limit, d < 10 := fun d hd => hds d (List.mem_of_mem_take hd)
    have hrun := digitRun_append hs htake 0 ((ds.drop limit).map s.digitChar)
    rwa [← List.map_append, List.take_append_drop, hlen, digitRun_zero, List.append_nil] at hrun

namespace Numeral

variable {n : Numeral} {s : Symbols} {sign : Option Sign} {start body : List Char} {r : Reading}

theorem chronology_of_read {text : List Char} (h : n.read s true text = .ok r) :
    r.chronology = none := by
  obtain ⟨_, _, -, -, hread⟩ := exists_sign_of_read h
  obtain ⟨-, -, rfl⟩ := (readDigits_eq_ok_iff rfl rfl).1 hread
  rfl

/-- A number that is read as a value in range takes all digits that it does not leave. -/
theorem rest_of_readDigits (hwindow : n.window = none) (hfield : n.field ≠ .instantSeconds)
    (h : n.readDigits s true sign start body = .ok r)
    (hr : ∀ p ∈ r.fields, p.2 ∈ p.1.range) {run : List Nat}
    (hrun : s.digitRun (n.maxWidth + n.reserved) body = run) {count : Nat}
    (hcount : max n.minWidth (run.length - n.reserved) = count) :
    n.minWidth ≤ run.length ∧ r.rest = body.drop count ∧
      ∃ x ∈ n.field.range, x.natAbs = ofDigits (run.take count) := by
  obtain ⟨hlong, -, hvalue⟩ := (readDigits_eq_ok_iff hrun (congrArg run.take hcount)).1 h
  have hlen : (run.take count).length = count := by
    rw [List.length_take]
    omega
  have hds : ∀ d ∈ run.take count, d < 10 := by
    intro d hd
    refine (s.digitRun_spec (n.maxWidth + n.reserved) body).2.1 d ?_
    rw [hrun]
    exact List.mem_of_mem_take hd
  rw [decode, hwindow] at hvalue
  refine ⟨hlong, ?_⟩
  by_cases hfits : FitsInt64 (signedValue sign (run.take count))
  · rw [fitting, if_pos hfits, hlen] at hvalue
    rw [hvalue] at hr ⊢
    exact ⟨rfl, _, hr _ List.mem_cons_self, natAbs_signedValue _ _⟩
  · rw [fitting, if_neg hfits, signedValue_dropLast hds] at hvalue
    rw [hvalue] at hr
    have hlarge := natAbs_tdiv_of_not_fitsInt64 hfits
    have hsmall := Field.natAbs_lt_of_mem_range hfield (hr _ List.mem_cons_self)
    exact absurd hlarge (Nat.not_le.2 hsmall)

/-- A number with as many digits as its value needs, of a field whose values have fewer than
nineteen. -/
structure Unbounded (n : Numeral) : Prop where
  window_eq : n.window = none
  field_ne : n.field ≠ .instantSeconds
  minWidth_pos : 0 < n.minWidth
  minWidth_lt : n.minWidth < maxDigits
  maxWidth_eq : n.maxWidth = maxDigits
  sign_ne : n.sign ≠ .never

/-- Such a number takes a digit of those behind it if there are more than it leaves. It has room for
one unless its own are nineteen, and then its value is not in range. -/
theorem Unbounded.rest_lt_of_read (hs : s.Legible) (hn : n.Unbounded) {value : Int}
    {cs : List Char} (hcs : n.render s value = .ok cs) {ds : List Nat} (hds : ∀ d ∈ ds, d < 10)
    (hlong : n.reserved < ds.length) (h : n.read s true (cs ++ ds.map s.digitChar) = .ok r)
    (hr : ∀ p ∈ r.fields, p.2 ∈ p.1.range) : r.rest.length < ds.length := by
  obtain ⟨hwide, hneg, rfl⟩ := render_of_ok hs hcs
  have hshown : n.shown value = value := by
    rw [shown, hn.window_eq]
  rw [hshown] at hwide hneg h
  have hvalue := n.ofDigits_writtenDigits value
  have hlen := n.length_writtenDigits value
  have hown : ∀ d ∈ n.writtenDigits value, d < 10 := fun d => lt_ten_of_mem_writtenDigits
  have hnever : n.sign = .never → 0 ≤ value := fun he => absurd he hn.sign_ne
  generalize hwritten : n.writtenDigits value = own at h hvalue hlen hown
  have hall : ∀ d ∈ own ++ ds, d < 10 := List.forall_mem_append.2 ⟨hown, hds⟩
  have hne : own ++ ds ≠ [] := by
    refine List.ne_nil_of_length_pos ?_
    have := hn.minWidth_pos
    rw [List.length_append]
    omega
  have hbody : own.map s.digitChar ++ ds.map s.digitChar = (own ++ ds).map s.digitChar ++ [] := by
    rw [List.append_nil, List.map_append]
  rw [List.append_assoc, hbody, read_sign_append hs hall hne
    (fun hsome => admits_of_writtenSign_positive hsome _)
    (fun hsome => admits_of_writtenSign_negative hnever hneg hsome _)
    (ne_always_of_writtenSign_none hnever), List.append_nil] at h
  obtain ⟨-, hrest, x, hx, habs⟩ := rest_of_readDigits hn.window_eq hn.field_ne h hr
    (Symbols.digitRun_map_digitChar hs hall _) rfl
  have hvariable := hn.minWidth_lt
  rw [hn.maxWidth_eq] at hwide hrest habs
  rw [List.length_take, List.length_append] at hrest habs
  rw [hrest, List.length_drop, List.length_map, List.length_append]
  by_cases hroom : own.length < maxDigits
  · omega
  · have hnineteen : own.length = maxDigits := by omega
    have htake : ((own ++ ds).take (maxDigits + n.reserved)).take
        (max n.minWidth (min (maxDigits + n.reserved) (own.length + ds.length) - n.reserved)) =
          own := by
      rw [List.take_take, List.take_left' (by omega)]
    rw [htake, hvalue] at habs
    have hsmall := Field.natAbs_lt_of_mem_range hn.field_ne hx
    have hlarge : ¬ value.natAbs < tenPow 18 := by
      have hmaxDigits : maxDigits = 19 := rfl
      rw [← length_decimal_le_iff (by decide)]
      omega
    have hpow : tenPow 18 = 1000000000000000000 := rfl
    omega

end Numeral

theorem Fraction.exists_nano_of_render {width : Nat} {s : Symbols} {x : Int} {cs : List Char}
    (h : (nanoDigits width).render s x = .ok cs) : ∃ nano : Nat, x = nano ∧ nano < tenPow 9 := by
  by_cases hx : x ∈ Field.nanoOfSecond.range
  · rw [ValueRange.mem_def] at hx
    simp only [Field.range, ValueRange.fixed] at hx
    exact ⟨x.toNat, by omega, by simp only [tenPow]; omega⟩
  · have hout : (nanoDigits width).render s x =
        .error (.print (.outOfRange .nanoOfSecond Field.nanoOfSecond.range x)) := if_pos hx
    rw [hout] at h
    cases h

namespace Leaf

/-- A leaf that writes a row of digits, and reads no fewer if what it reads is in range. -/
structure IsDigits (st : Settings) (l : Leaf) (width : Nat) : Prop where
  written : ∀ v cs, l.render st v = .ok (some cs) →
    ∃ ds : List Nat, (∀ d ∈ ds, d < 10) ∧ ds.length = width ∧ cs = ds.map st.symbols.digitChar
  read : ∀ text r, l.read st .initial text = .ok r → (∀ p ∈ r.fields, p.2 ∈ p.1.range) →
    r.rest.length + width ≤ text.length
  chronology : ∀ text r, l.read st .initial text = .ok r → r.chronology = none

variable {st : Settings}

theorem isDigits_fraction (hs : st.symbols.Legible) {width : Nat} (hpos : 0 < width)
    (hle : width ≤ 9) : (fraction (.nanoDigits width)).IsDigits st width where
  written := by
    intro v cs h
    obtain ⟨x, -, hx⟩ := render_fraction h
    obtain ⟨nano, rfl, hnano⟩ := Fraction.exists_nano_of_render hx
    have hsized : (Fraction.nanoDigits width).WellSized := ⟨hpos, Nat.le_refl width, hle⟩
    have hscale : (Fraction.nanoDigits width).scale nano = width := Fraction.scale_eq_of_fixed rfl _
    rw [Fraction.render_nano hs hsized rfl hnano, hscale, if_neg (Nat.pos_iff_ne_zero.1 hpos)] at hx
    cases hx
    have hfirst : nano / tenPow (9 - width) < tenPow width := by
      rw [Nat.div_lt_iff_lt_mul (tenPow_pos _), ← tenPow_add, Nat.add_sub_cancel' hle]
      exact hnano
    exact ⟨_, fun _ => lt_ten_of_mem_paddedDigits, length_paddedDigits_of_lt hpos hfirst, rfl⟩
  read := by
    intro text r h _
    obtain ⟨ds, rest, hlen, -, rfl, rfl⟩ := Fraction.nanoDigits_read_eq_ok hpos hle h
    rw [List.length_append, List.length_map, hlen, Nat.add_comm]
    exact Nat.le_refl _
  chronology := by
    intro text r h
    obtain ⟨ds, rest, -, -, -, rfl⟩ := Fraction.nanoDigits_read_eq_ok hpos hle h
    rfl

theorem isDigits_numeral (hs : st.symbols.Legible) {n : Numeral} {width : Nat}
    (hmin : n.minWidth = width) (hmax : n.maxWidth = width) (hsign : n.sign = .notNegative)
    (hreserved : n.reserved = 0) (hwindow : n.window = none) (hfield : n.field ≠ .instantSeconds) :
    (numeral n).IsDigits st width where
  written := by
    intro v cs h
    obtain ⟨x, -, hx⟩ := render_numeral h
    obtain ⟨ds, hds, hlen, htext⟩ :=
      Numeral.render_of_notNegative hs (hmin.trans hmax.symm) hsign hx
    exact ⟨ds, hds, hlen.trans hmin, htext⟩
  read := by
    intro text r h hr
    have hdigits := Numeral.readDigits_of_read hsign h
    have hle := (st.symbols.digitRun_spec (n.maxWidth + n.reserved) text).1
    have hprefix := (st.symbols.digitRun_spec (n.maxWidth + n.reserved) text).2.2.length_le
    rw [List.length_map] at hprefix
    obtain ⟨hlong, hrest, -⟩ := Numeral.rest_of_readDigits hwindow hfield hdigits hr rfl rfl
    rw [hrest, List.length_drop]
    omega
  chronology := by
    intro text r h
    exact Numeral.chronology_of_read h

/-- Leaves that write a row of digits together. -/
inductive DigitRow (st : Settings) : List Leaf → Nat → Prop
  | nil : DigitRow st [] 0
  | cons {l : Leaf} {ls : List Leaf} {first others : Nat} (hl : l.IsDigits st first)
      (hls : DigitRow st ls others) : DigitRow st (l :: ls) (first + others)

theorem DigitRow.written {ls : List Leaf} {width : Nat} (h : DigitRow st ls width) {v : Components}
    {text : List Char} (hw : Written st v ls text) :
    ∃ ds : List Nat, (∀ d ∈ ds, d < 10) ∧ ds.length = width ∧
      text = ds.map st.symbols.digitChar := by
  induction h generalizing text with
  | nil =>
      cases hw
      exact ⟨[], fun _ hd => absurd hd List.not_mem_nil, rfl, rfl⟩
  | cons hl hls ih =>
      obtain ⟨cs, rest, hcs, hrest, rfl⟩ := hw.exists_of_cons
      obtain ⟨ds, hds, hlen, rfl⟩ := hl.written v cs hcs
      obtain ⟨es, hes, hlen', rfl⟩ := ih hrest
      refine ⟨ds ++ es, List.forall_mem_append.2 ⟨hds, hes⟩, ?_, (List.map_append ..).symm⟩
      rw [List.length_append, hlen, hlen']

/-- A row of digits is read from no fewer digits, if all that is read is in range. Induction on the
leaves: the values of each of them are still there at the end. -/
theorem DigitRow.length_of_read {ls : List Leaf} {width : Nat} (h : DigitRow st ls width)
    {expand : Node → Context → List Char → Parsed} {c after : Context} (hmode : c.mode = .initial)
    {text rest : List Char}
    (hread : Node.parseAllWith expand st (ls.map .leaf) c text = (after, .ok rest))
    (hrange : ∀ f x, after.current.field f = some x → x ∈ f.range) :
    rest.length + width ≤ text.length := by
  induction h generalizing c text with
  | nil =>
      rw [List.map_nil, Node.parseAllWith] at hread
      cases hread
      exact Nat.le_refl _
  | cons hl hls ih =>
      obtain ⟨r, next, hfirst, hnext, hextends, -, hrest⟩ :=
        Node.parseAllWith_leaves_cons hmode hread
      have hothers := ih hnext hrest
      have hread := hl.read text r hfirst fun p hp => hrange p.1 p.2
        (Node.field_of_parseAllWith_leaves hnext hrest ((hextends p.1 p.2).2 (.inr hp)))
      omega

theorem DigitRow.chronology_of_read {ls : List Leaf} {width : Nat} (h : DigitRow st ls width)
    {expand : Node → Context → List Char → Parsed} {c after : Context} (hmode : c.mode = .initial)
    {text rest : List Char}
    (hread : Node.parseAllWith expand st (ls.map .leaf) c text = (after, .ok rest)) :
    after.current.chronology = c.current.chronology := by
  induction h generalizing c text with
  | nil =>
      rw [List.map_nil, Node.parseAllWith] at hread
      cases hread
      rfl
  | cons hl hls ih =>
      obtain ⟨r, next, hfirst, hnext, -, hchronology, hrest⟩ :=
        Node.parseAllWith_leaves_cons hmode hread
      rw [ih hnext hrest, hchronology, hl.chronology text r hfirst, Option.none_or]

theorem DigitRow.append {ls ls' : List Leaf} {width width' : Nat} (h : DigitRow st ls width)
    (h' : DigitRow st ls' width') : DigitRow st (ls ++ ls') (width + width') := by
  induction h with
  | nil => simpa using h'
  | cons hl hls ih =>
      rw [List.cons_append, Nat.add_assoc]
      exact .cons hl ih

/-- Numbers of fixed widths behind an anchor are a row of digits. -/
theorem digitRow_fixed (hs : st.symbols.Legible) {fixed : List (Field × Nat)}
    (h : ∀ p ∈ fixed, p.1 ≠ .instantSeconds) {parts : List RowPart}
    (hparts : parts = fixed.map fun p => (NumberStep.fixed p.1 p.2).part) :
    DigitRow st (RowPart.leaves true parts) (RowPart.joinedWidth parts) := by
  induction fixed generalizing parts with
  | nil =>
      cases hparts
      exact .nil
  | cons p fixed ih =>
      rw [List.forall_mem_cons] at h
      cases hparts
      exact .cons (isDigits_numeral hs rfl rfl rfl rfl rfl h.1) (ih h.2 rfl)

/-- A number of variable width in front of a row of more digits than it leaves is not read from what
they write, or as a value out of range. -/
theorem DigitRow.not_read (hs : st.symbols.Legible) {n : Numeral} (hn : n.Unbounded)
    {ls : List Leaf} {width : Nat} (h : DigitRow st ls width) (hlong : n.reserved < width)
    {v : Components} {text : List Char}
    (hw : Written st v (.numeral n :: ls) text) {expand : Node → Context → List Char → Parsed}
    {c after : Context} (hmode : c.mode = .initial)
    (hread : Node.parseAllWith expand st ((.numeral n :: ls).map .leaf) c text = (after, .ok []))
    (hchronology : c.current.chronology = none) :
    after.current.chronology = none ∧ ∃ f x, after.current.field f = some x ∧ x ∉ f.range := by
  obtain ⟨cs, row, hcs, hrow, rfl⟩ := hw.exists_of_cons
  obtain ⟨x, -, hx⟩ := render_numeral hcs
  obtain ⟨ds, hds, hlen, rfl⟩ := h.written hrow
  obtain ⟨r, next, hfirst, hnext, hextends, hfirstChronology, hrest⟩ :=
    Node.parseAllWith_leaves_cons hmode hread
  refine ⟨?_, ?_⟩
  · rw [h.chronology_of_read hnext hrest, hfirstChronology, Numeral.chronology_of_read hfirst,
      hchronology, Option.none_or]
  · by_contra hrange
    simp only [not_exists, not_and, not_not] at hrange
    have hleft := hn.rest_lt_of_read hs hx hds (hlen ▸ hlong) hfirst fun p hp => hrange p.1 p.2
      (Node.field_of_parseAllWith_leaves hnext hrest ((hextends p.1 p.2).2 (.inr hp)))
    have hneeded := h.length_of_read hnext hrest hrange
    rw [List.length_nil] at hneeded
    omega

end Leaf

end DateTimeText
