import DateTimeText.Proofs.Node.Canonical
import DateTimeText.Proofs.Text.DigitSums

/-!
# The grammar of numbers

In strict mode a number is a sign that its style calls for and a row of digits. It takes as many of
the digits that are there as its greatest width allows, and it needs as many as its least width says.
Digits of more than 64 bits leave their last one, even if the others are then too few.
-/

namespace DateTimeText

namespace Numeral

variable {n : Numeral} {s : Symbols} {sign : Option Sign} {ds : List Nat} {text rest : List Char}
  {r : Reading}

/-- A text starts with a number in strict mode: a sign and digits, as many as there are up to the
greatest width. -/
structure Reads (n : Numeral) (s : Symbols) (text : List Char) (sign : Option Sign) (ds : List Nat)
    (rest : List Char) : Prop where
  text_eq : text = (sign.map (Sign.char s)).toList ++ (ds.map s.digitChar ++ rest)
  sign_mem : sign ∈ n.sign.signs
  lt_ten : ∀ d ∈ ds, d < 10
  minWidth_le : n.minWidth ≤ ds.length
  le_maxWidth : ds.length ≤ n.maxWidth
  ends : ds.length < n.maxWidth → s.EndsDigits rest
  rules : n.SignRules sign ds

theorem Reads.digitRun_eq (hs : s.Legible) (h : n.Reads s text sign ds rest) :
    s.digitRun n.maxWidth (ds.map s.digitChar ++ rest) = ds := by
  obtain ⟨k, hk⟩ := Nat.exists_eq_add_of_le h.le_maxWidth
  rw [hk, Symbols.digitRun_append hs h.lt_ten]
  rcases Nat.eq_zero_or_pos k with rfl | hpos
  · rw [Symbols.digitRun_zero, List.append_nil]
  · rw [Symbols.digitRun_of_endsDigits (h.ends (by omega)), List.append_nil]

/-- The digits that a number keeps stand in front of the one that it leaves. -/
theorem drop_length_fitting (s : Symbols) (sign : Option Sign) (ds : List Nat) (rest : List Char) :
    (fitting sign ds).map s.digitChar ++
        (ds.map s.digitChar ++ rest).drop (fitting sign ds).length =
      ds.map s.digitChar ++ rest := by
  obtain ⟨left, hleft⟩ : fitting sign ds <+: ds := by
    unfold fitting
    split
    · exact List.prefix_rfl
    · exact List.dropLast_prefix ds
  generalize fitting sign ds = kept at hleft ⊢
  rw [← hleft, List.map_append, List.append_assoc, List.drop_left' (List.length_map _)]

/-- A number without neighbours is read where a text starts with one. -/
theorem Reads.read_eq (hs : s.Legible) (hn : n.WellSized) (hreserved : n.reserved = 0)
    (h : n.Reads s text sign ds rest) :
    ∃ body left, text = (sign.map (Sign.char s)).toList ++
        ((fitting sign ds).map s.digitChar ++ left) ∧
      n.read s true text =
        .ok (.value n.field (n.decode (signedValue sign (fitting sign ds))) body left) := by
  have hne : ds ≠ [] :=
    List.ne_nil_of_length_pos (Nat.lt_of_lt_of_le hn.one_le_minWidth h.minWidth_le)
  have hrun : s.digitRun (n.maxWidth + n.reserved) (ds.map s.digitChar ++ rest) = ds := by
    rw [hreserved, Nat.add_zero, h.digitRun_eq hs]
  have htake : ds.take (max n.minWidth (ds.length - n.reserved)) = ds :=
    List.take_of_length_le (by omega)
  have hmem := h.sign_mem
  have hsign := @read_sign_append n s hs sign ds rest h.lt_ten hne
    (fun he => SignStyle.positive_mem_signs.1 (he ▸ hmem))
    (fun he => SignStyle.negative_mem_signs.1 (he ▸ hmem))
    (fun he => SignStyle.none_mem_signs.1 (he ▸ hmem))
  rw [← h.text_eq] at hsign
  refine ⟨ds.map s.digitChar ++ rest,
    (ds.map s.digitChar ++ rest).drop (fitting sign ds).length, ?_, ?_⟩
  · rw [drop_length_fitting, ← h.text_eq]
  · rw [hsign]
    exact (readDigits_eq_ok_iff hrun htake).2 ⟨h.minWidth_le, h.rules, rfl⟩

theorem exists_reads_of_read (hreserved : n.reserved = 0) (h : n.read s true text = .ok r) :
    ∃ sign ds rest, n.Reads s text sign ds rest := by
  obtain ⟨sign, body, hsign, htext, hread⟩ := exists_sign_of_read h
  obtain ⟨hle, hten, -⟩ := s.digitRun_spec n.maxWidth body
  have hsplit := s.eq_append_of_digitRun n.maxWidth body
  have hends := @Symbols.endsDigits_drop_digitRun s n.maxWidth body
  have hrun : s.digitRun (n.maxWidth + n.reserved) body = s.digitRun n.maxWidth body := by
    rw [hreserved, Nat.add_zero]
  generalize s.digitRun n.maxWidth body = ds at hle hten hsplit hends hrun
  have htake : ds.take (max n.minWidth (ds.length - n.reserved)) = ds :=
    List.take_of_length_le (by omega)
  obtain ⟨hlong, hrules, -⟩ := (readDigits_eq_ok_iff hrun htake).1 hread
  exact ⟨sign, ds, body.drop ds.length, htext.trans (congrArg _ hsplit), hsign, hten, hlong, hle,
    hends, hrules⟩

/-- The digits that a number takes. Its neighbours leave it those between its widths, of which it
gives back the last one if they have more than 64 bits. So it is only a least width of nineteen that
it can miss. -/
theorem widths_of_read (hn : n.WellSized) (h : n.read s true text = .ok r) :
    ∃ sign ds, text = (sign.map (Sign.char s)).toList ++ (ds.map s.digitChar ++ r.rest) ∧
      (∀ d ∈ ds, d < 10) ∧ ds.length ≤ n.maxWidth ∧
      (n.minWidth ≤ ds.length ∨
        n.minWidth = maxDigits ∧ ds.length + 1 = maxDigits ∧
          ∃ d left, d < 10 ∧ r.rest = s.digitChar d :: left ∧
            ¬ FitsInt64 (signedValue sign (ds ++ [d]))) := by
  obtain ⟨sign, body, -, htext, hread⟩ := exists_sign_of_read h
  obtain ⟨hle, hten, -⟩ := s.digitRun_spec (n.maxWidth + n.reserved) body
  have hsplit := s.eq_append_of_digitRun (n.maxWidth + n.reserved) body
  generalize hrun : s.digitRun (n.maxWidth + n.reserved) body = run at hle hten hsplit
  generalize hown : run.take (max n.minWidth (run.length - n.reserved)) = own
  obtain ⟨hlong, -, hr⟩ := (readDigits_eq_ok_iff hrun hown).1 hread
  have hrest : r.rest = body.drop (fitting sign own).length := by
    rw [hr]
    rfl
  have hsizes := hn.minWidth_le_maxWidth
  have hlen : n.minWidth ≤ own.length ∧ own.length ≤ n.maxWidth := by
    rw [← hown, List.length_take]
    omega
  have hownTen : ∀ d ∈ own, d < 10 := fun d hd => hten d (List.mem_of_mem_take (hown ▸ hd))
  obtain ⟨behind, hbody⟩ : ∃ behind, body = own.map s.digitChar ++ behind := by
    refine ⟨(run.drop (max n.minWidth (run.length - n.reserved))).map s.digitChar ++
      body.drop run.length, ?_⟩
    rw [← List.append_assoc, ← List.map_append, ← hown, List.take_append_drop]
    exact hsplit
  have htaken : text = (sign.map (Sign.char s)).toList ++
      ((fitting sign own).map s.digitChar ++ r.rest) := by
    rw [htext, hrest, hbody, drop_length_fitting]
  by_cases hfits : FitsInt64 (signedValue sign own)
  · rw [fitting, if_pos hfits] at htaken
    exact ⟨sign, own, htaken, hownTen, hlen.2, .inl hlen.1⟩
  · rw [fitting, if_neg hfits] at htaken hrest
    have hnineteen : maxDigits ≤ own.length :=
      Nat.not_lt.1 fun hshort => hfits (fits_signedValue hownTen hshort)
    have hmax := hn.maxWidth_le
    obtain rfl | ⟨front, last, rfl⟩ := List.eq_nil_or_concat own
    · cases hnineteen
    rw [List.concat_eq_append, List.dropLast_concat] at htaken hrest
    rw [List.concat_eq_append] at hbody hlen hownTen hnineteen hfits
    rw [List.forall_mem_append, List.forall_mem_singleton] at hownTen
    rw [List.length_append, List.length_singleton] at hlen hnineteen
    refine ⟨sign, front, htaken, hownTen.1, by omega, ?_⟩
    refine (Nat.lt_or_ge n.minWidth maxDigits).imp (fun _ => by omega) fun hfixed => ?_
    refine ⟨by omega, by omega, last, behind, hownTen.2, ?_, hfits⟩
    rw [hrest, hbody, List.map_append, List.append_assoc, List.drop_left' (List.length_map _)]
    rfl

end Numeral

namespace Node

open Numeral

variable {n : Numeral} {s : Settings} {c : Context}

/-- In strict mode a number without neighbours is read exactly if the text starts with a sign and
digits as its style and its widths call for. It takes these digits, but for the last of them if they
have more than 64 bits, and stores the value of what it takes. The digits are summed without
reaching a bound, and the value has 64 bits. -/
theorem parse_number_iff (hn : n.WellSized) (hreserved : n.reserved = 0) (hwindow : n.window = none)
    (hs : s.symbols.Legible) (hstrict : c.mode.strict = true)
    (hc : c.current.field n.field = none) (text : List Char) :
    ((∃ after rest, (leaf (.numeral n)).parse s c text = (after, .ok rest)) ↔
      ∃ sign ds rest, n.Reads s.symbols text sign ds rest) ∧
    ∀ sign ds rest, n.Reads s.symbols text sign ds rest →
      (∃ left, text = (sign.map (Sign.char s.symbols)).toList ++
          ((fitting sign ds).map s.symbols.digitChar ++ left) ∧
        (leaf (.numeral n)).parse s c text =
          ({ c with current := c.current.set n.field (signedValue sign (fitting sign ds)) },
            .ok left)) ∧
      ofDigitsSaturating ds = ofDigits ds ∧ FitsInt64 (signedValue sign (fitting sign ds)) := by
  have hparse : (leaf (.numeral n)).parse s c text =
      c.storeResult (n.read s.symbols true text) := by
    rw [parse_leaf, Leaf.read, hstrict]
  have hstore : ∀ sign ds rest, n.Reads s.symbols text sign ds rest →
      ∃ left, text = (sign.map (Sign.char s.symbols)).toList ++
          ((fitting sign ds).map s.symbols.digitChar ++ left) ∧
        (leaf (.numeral n)).parse s c text =
          ({ c with current := c.current.set n.field (signedValue sign (fitting sign ds)) },
            .ok left) := by
    intro sign ds rest h
    obtain ⟨body, left, htext, hread⟩ := h.read_eq hs hn hreserved
    have hdecode : n.decode (signedValue sign (fitting sign ds)) =
        signedValue sign (fitting sign ds) := by
      rw [decode, hwindow]
    refine ⟨left, htext, ?_⟩
    rw [hparse, hread, hdecode]
    exact Context.storeResult_value (by simp [hc]) body left
  refine ⟨⟨?_, ?_⟩, fun sign ds rest h => ⟨hstore sign ds rest h, ?_, ?_⟩⟩
  · rintro ⟨after, rest, hok⟩
    rw [hparse] at hok
    obtain ⟨r, hread, -⟩ := Context.storeResult_eq_ok hok
    exact exists_reads_of_read hreserved hread
  · rintro ⟨sign, ds, rest, h⟩
    obtain ⟨left, -, hok⟩ := hstore sign ds rest h
    exact ⟨_, left, hok⟩
  · have hlen := Nat.le_trans h.le_maxWidth hn.maxWidth_le
    exact ofDigitsSaturating_eq h.lt_ten (Nat.le_trans hlen (by decide))
  · exact fits_signedValue_fitting h.lt_ten (Nat.le_trans h.le_maxWidth hn.maxWidth_le)

/-- A number of one digit more than 64 bits have leaves this digit. -/
theorem parse_number_iff_overflow :
    let n := Numeral.plain .instantSeconds 1 19 .normal
    let c : Context := ⟨Mode.initial, .empty, []⟩
    let ds := [9, 2, 2, 3, 3, 7, 2, 0, 3, 6, 8, 5, 4, 7, 7, 5, 8, 0, 8]
    let text := "9223372036854775808".toList
    (n.WellSized ∧ n.reserved = 0 ∧ n.window = none ∧ Settings.root.symbols.Legible ∧
        c.mode.strict = true ∧ c.current.field n.field = none ∧
        n.Reads Settings.root.symbols text none ds []) ∧
      (∃ after rest, (leaf (.numeral n)).parse .root c text = (after, .ok rest)) ∧
      ∃ left, text = (fitting none ds).map Symbols.standard.digitChar ++ left ∧
        (leaf (.numeral n)).parse .root c text =
          ({ c with current := c.current.set .instantSeconds 922337203685477580 }, .ok left) := by
  intro n c ds text
  have hn : n.WellSized := ⟨by decide, by decide, by decide⟩
  have hs : Settings.root.symbols.Legible := Symbols.standard_legible
  have hreads : n.Reads Settings.root.symbols text none ds [] :=
    ⟨rfl, by decide, by decide, by decide, by decide, fun h => absurd h (by decide),
      ⟨nofun, nofun⟩⟩
  obtain ⟨hiff, hvalue⟩ := @parse_number_iff n .root c hn rfl rfl hs rfl rfl text
  exact ⟨⟨hn, rfl, rfl, hs, rfl, rfl, hreads⟩, hiff.2 ⟨none, ds, [], hreads⟩,
    (hvalue none ds [] hreads).1⟩

/-- In strict mode a number alone or with neighbours takes, behind its sign, no more digits than its
greatest width, and no fewer than its least width unless this is nineteen and as many digits have
more than 64 bits: then it takes eighteen. -/
theorem parse_number_widths (hn : n.WellSized) (hstrict : c.mode.strict = true) {after : Context}
    {text rest : List Char} (h : (leaf (.numeral n)).parse s c text = (after, .ok rest)) :
    ∃ sign ds, text = (sign.map (Sign.char s.symbols)).toList ++
        (ds.map s.symbols.digitChar ++ rest) ∧
      (∀ d ∈ ds, d < 10) ∧ ds.length ≤ n.maxWidth ∧
      (n.minWidth ≤ ds.length ∨
        n.minWidth = maxDigits ∧ ds.length + 1 = maxDigits ∧
          ∃ d left, d < 10 ∧ rest = s.symbols.digitChar d :: left ∧
            ¬ FitsInt64 (signedValue sign (ds ++ [d]))) := by
  rw [parse_leaf, Leaf.read, hstrict] at h
  obtain ⟨r, hread, rfl, -⟩ := Context.storeResult_eq_ok h
  exact widths_of_read hn hread

/-- A year in front of a month of two digits takes what the month leaves. -/
theorem parse_number_widths_anchor :
    let n := (Numeral.plain .year 1 19 .normal).reserve 2
    let c : Context := ⟨Mode.initial, .empty, []⟩
    (n.WellSized ∧ c.mode.strict = true ∧
        (leaf (.numeral n)).parse .root c "201106".toList =
          ({ c with current := c.current.set .year 2011 }, .ok ['0', '6'])) ∧
      ∃ (sign : Option Sign) (ds : List Nat), "201106".toList = (sign.map (Sign.char .standard)).toList ++
          (ds.map Symbols.standard.digitChar ++ ['0', '6']) ∧
        (∀ d ∈ ds, d < 10) ∧ ds.length ≤ 19 ∧ 1 ≤ ds.length := by
  intro n c
  have hn : n.WellSized := ⟨by decide, by decide, by decide⟩
  have hparse : (leaf (.numeral n)).parse .root c "201106".toList =
      ({ c with current := c.current.set .year 2011 }, .ok ['0', '6']) := rfl
  obtain ⟨sign, ds, htext, hds, hmax, hmin⟩ := parse_number_widths hn rfl hparse
  have hone : n.minWidth ≤ ds.length := hmin.resolve_right fun h => absurd h.1 (by decide)
  exact ⟨⟨hn, rfl, hparse⟩, sign, ds, htext, hds, hmax, hone⟩

/-- A number of exactly nineteen digits takes eighteen of nineteen nines. -/
theorem nineteen_nines_cut :
    let n := Numeral.plain .instantSeconds 19 19 .notNegative
    let c : Context := ⟨Mode.initial, .empty, []⟩
    n.WellSized ∧ c.mode.strict = true ∧
      (leaf (.numeral n)).parse .root c (List.replicate 19 '9') =
        ({ c with current := c.current.set .instantSeconds 999999999999999999 }, .ok ['9']) :=
  ⟨⟨by decide, by decide, by decide⟩, rfl, rfl⟩

end Node

end DateTimeText
