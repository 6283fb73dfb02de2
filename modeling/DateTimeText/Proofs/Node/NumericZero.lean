import DateTimeText.Proofs.Node.OffsetText

/-!
# Zero offsets written in digits

The text of a zero offset may be the digits of one, a zero for each part that always stands. It is
looked for before an offset is: where only the last part is not zero, and is written because of
that, the digits in front of it are taken for a zero offset.
-/

namespace DateTimeText

namespace OffsetForm

/-- A form that has the text of a zero offset with all parts that always stand. -/
structure NumericZero (o : OffsetForm) : Prop where
  minutes_ne : o.pattern.minutes ≠ .absent
  seconds_ne : o.pattern.seconds ≠ .mandatory
  zeroText_eq : o.zeroText = '+' :: (twoDigits 0 ++
    if o.pattern.minutes = .mandatory then colon o.pattern ++ twoDigits 0 else [])

/-- Whether only the last part of an offset is not zero, and would not stand if it were. -/
def Shadows (o : OffsetForm) (total : Int) : Prop :=
  (o.pattern.minutes = .optional ∨ o.pattern.seconds = .optional) ∧
    o.pattern.resolution ≤ total ∧ total < 60 * o.pattern.resolution

instance (o : OffsetForm) (total : Int) : Decidable (o.Shadows total) :=
  inferInstanceAs (Decidable (_ ∧ _))

/-- The last part of an offset that has none but this one. -/
def lastPart (p : OffsetPattern) (total : Int) : List Char :=
  colon p ++ twoDigits (total.natAbs / p.resolution)

variable {o : OffsetForm} {mode : Mode} {text rest : List Char} {total : Int}

/-- No character of such a text has a case. -/
theorem NumericZero.mem_of_mem_zeroText (ho : o.NumericZero) :
    ∀ a ∈ o.zeroText, a ∈ ['+', '-', ':', '0'] := by
  rw [ho.zeroText_eq, colon]
  split
  · split
    · simp [twoDigits]
    · simp [twoDigits]
  · simp [twoDigits]

theorem NumericZero.readZero?_eq_some_iff (ho : o.NumericZero) :
    o.readZero? mode text = some rest ↔ text = o.zeroText ++ rest := by
  have hne : ¬ o.zeroText.isEmpty := by
    rw [ho.zeroText_eq]
    nofun
  rw [readZero?, if_neg hne]
  constructor
  · intro h
    split at h
    · cases h
    · exact Mode.eq_append_of_strip?
        (fun a ha c => Mode.eq_of_sameChar (ho.mem_of_mem_zeroText a ha)) h
  · rintro rfl
    rw [if_neg (by simp [ho.zeroText_eq]), Mode.strip?_append]

/-- The text of an offset that is not zero starts with that of a zero offset if and only if nothing
but a last part that need not stand makes the difference. -/
theorem NumericZero.sign_cons_joinParts_eq_iff (ho : o.NumericZero) (h : total.natAbs < 216000)
    (hparts : ¬ (parts o.pattern total).all (· == 0) = true) :
    (if total < 0 then '-' else '+') :: joinParts o.pattern (parts o.pattern total) =
        o.zeroText ++ rest ↔
      o.Shadows total ∧ rest = lastPart o.pattern total := by
  have hhours := hoursOf_eq h
  have hminutes := minutesOf_eq total
  have hseconds := secondsOf_eq total
  have hsign : (if total < 0 then '-' else '+') = '+' ↔ 0 ≤ total := by
    split
    · exact iff_of_false (by decide) (by omega)
    · exact iff_of_true rfl (by omega)
  have hhoursText : ∀ {a b}, twoDigits (hoursOf total) ++ a = twoDigits 0 ++ b ↔
      hoursOf total = 0 ∧ a = b := twoDigits_append_inj (by omega) (by decide)
  have hminutesText : ∀ {a b}, twoDigits (minutesOf total) ++ a = twoDigits 0 ++ b ↔
      minutesOf total = 0 ∧ a = b := twoDigits_append_inj (by omega) (by decide)
  rw [parts_all_zero_iff h] at hparts
  rw [joinParts_parts, ho.zeroText_eq, List.cons_append, List.cons.injEq, List.append_assoc, hsign,
    hhoursText, Shadows, lastPart]
  have huse := seconds_absent_or_minutes_mandatory o.pattern
  -- The text of a zero offset has the parts that always stand, so the cases are where these end.
  cases hm : o.pattern.minutes with
  | absent => exact absurd hm ho.minutes_ne
  | optional =>
      have hs : o.pattern.seconds = .absent := by simpa [hm] using huse
      have hresolution : o.pattern.resolution = 60 := by simp [OffsetPattern.resolution, hm, hs]
      rw [hresolution] at hparts ⊢
      have htotal : 0 ≤ total ∧ hoursOf total = 0 ↔ 60 ≤ total ∧ total < 60 * 60 := by omega
      simp only [secondsText, writes, hs, reduceCtorEq, if_false, List.nil_append,
        List.append_nil, true_or, true_and, Bool.false_eq_true, ← and_assoc, htotal]
      refine and_congr_right fun hshadows => ?_
      have hne : minutesOf total ≠ 0 := by omega
      have hlast : minutesOf total = total.natAbs / 60 := by omega
      rw [if_pos (bne_iff_ne.2 hne), hlast, eq_comm]
  | mandatory =>
      simp only [writes, if_true, List.append_assoc, List.append_cancel_left_eq, hminutesText,
        reduceCtorEq, false_or]
      cases hs : o.pattern.seconds with
      | absent =>
          have hresolution : o.pattern.resolution = 60 := by
            simp [OffsetPattern.resolution, hm, hs]
          rw [hresolution] at hparts
          simp only [reduceCtorEq, false_and, iff_false]
          omega
      | optional =>
          have hresolution : o.pattern.resolution = 1 := by
            simp [OffsetPattern.resolution, hs]
          rw [hresolution] at hparts ⊢
          have htotal : (0 ≤ total ∧ hoursOf total = 0) ∧ minutesOf total = 0 ↔
              1 ≤ total ∧ total < 60 * 1 := by omega
          simp only [true_and, ← and_assoc, Int.natCast_one, htotal]
          refine and_congr_right fun hshadows => ?_
          have hne : secondsOf total ≠ 0 := by omega
          have hlast : secondsOf total = total.natAbs / 1 := by omega
          rw [secondsText, hs, writes, if_pos (bne_iff_ne.2 hne), hlast, eq_comm]
      | mandatory => exact absurd hs ho.seconds_ne

/-- An offset whose last part alone is not zero is written with the text of a zero offset in front
of it. -/
theorem NumericZero.render_of_shadows (ho : o.NumericZero) (h : total.natAbs < 216000)
    (hshadows : o.Shadows total) : o.render total = .ok (o.zeroText ++ lastPart o.pattern total) := by
  have hparts : ¬ (parts o.pattern total).all (· == 0) = true := by
    have hlast := Nat.mod_lt total.natAbs (OffsetPattern.resolution_pos o.pattern)
    obtain ⟨-, hlow, -⟩ := hshadows
    rw [parts_all_zero_iff h]
    omega
  rw [render_eq_ok o h, if_neg hparts, (ho.sign_cons_joinParts_eq_iff h hparts).2 ⟨hshadows, rfl⟩]

theorem NumericZero.read?_zeroText (ho : o.NumericZero) (mode : Mode) (rest : List Char) :
    o.read? mode (o.zeroText ++ rest) = some (0, rest) := by
  rw [read?, ho.readZero?_eq_some_iff.2 rfl]
  rfl

/-- Any other offset is read back to the end of the text. -/
theorem NumericZero.read?_render_of_not_shadows (ho : o.NumericZero) (h : total.natAbs < 216000)
    (hshadows : ¬ o.Shadows total) (htext : o.render total = .ok text) (mode : Mode) :
    o.read? mode (text ++ []) = some (kept o.pattern total, []) := by
  apply read?_render_of_readZero? h htext endsOffset_nil
  rw [render_eq_ok o h] at htext
  cases htext
  split
  · exact ho.readZero?_eq_some_iff.2 rfl
  · rename_i hparts
    rw [List.append_nil, Option.eq_none_iff_forall_ne_some]
    intro rest hrest
    exact hshadows ((ho.sign_cons_joinParts_eq_iff h hparts).1 (ho.readZero?_eq_some_iff.1 hrest)).1

end OffsetForm

end DateTimeText
