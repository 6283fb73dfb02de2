import DateTimeText.Node.Numeral
import DateTimeText.Proofs.Text.Digits
import Mathlib.Order.Bounds.Defs

/-!
# Windows of reduced numbers

A reduced number shows the last digits of a value, without its sign, and its digits are read as a
value of its window. Above zero each value of a window has digits of its own. In a window that
reaches from below zero to above it a value and its negative have the same digits, and reading gives
the lesser of them.
-/

namespace DateTimeText

namespace Window

variable {w : Window} {x y : Int} {d : Nat}

/-- The number that a reduced number shows of a value: its last digits, without its sign. -/
def lastDigits (w : Window) (x : Int) : Nat :=
  (x.tmod w.span).natAbs

theorem lastDigits_eq (w : Window) (x : Int) : w.lastDigits x = x.natAbs % w.span.natAbs :=
  Int.natAbs_tmod x w.span

theorem lastDigits_lt (hspan : 0 < w.span) (x : Int) : (w.lastDigits x : Int) < w.span := by
  have hlt := Nat.mod_lt x.natAbs (Int.natAbs_pos.2 (Int.ne_of_gt hspan))
  rw [lastDigits_eq]
  omega

theorem lastDigits_lt_tenPow (base : Int) (width : Nat) (x : Int) :
    lastDigits ⟨base, tenPow width⟩ x < tenPow width :=
  Int.ofNat_lt.1 (lastDigits_lt (Int.natCast_pos.2 (tenPow_pos width)) x)

/-- Values on one side of zero that are less than a cycle apart are told apart by their last
digits. -/
theorem eq_of_lastDigits_eq (hside : 0 ≤ x ∧ 0 ≤ y ∨ x ≤ 0 ∧ y ≤ 0)
    (hnear : (x - y).natAbs < w.span.natAbs) (h : w.lastDigits x = w.lastDigits y) : x = y := by
  rw [lastDigits_eq, lastDigits_eq] at h
  have hx := Nat.sub_mod_eq_zero_of_mod_eq h
  have hy := Nat.sub_mod_eq_zero_of_mod_eq h.symm
  rw [Nat.mod_eq_of_lt (by omega)] at hx hy
  omega

/-- Where the cycle of the base starts, on the side of zero where the base lies. -/
def start (w : Window) : Int :=
  w.base - w.base.tmod w.span

theorem start_eq_mul (w : Window) : w.start = w.span * w.base.tdiv w.span := by
  have h := Int.mul_tdiv_add_tmod w.base w.span
  rw [start]
  omega

theorem start_of_pos (hspan : 0 < w.span) (hbase : 0 < w.base) :
    0 ≤ w.start ∧ w.start ≤ w.base ∧ w.base < w.start + w.span := by
  have hnonneg := Int.tmod_nonneg w.span (Int.le_of_lt hbase)
  have hlt := Int.tmod_lt_of_pos w.base hspan
  have hquot : 0 ≤ w.base.tdiv w.span := Int.tdiv_nonneg (Int.le_of_lt hbase) (Int.le_of_lt hspan)
  have hmul := Int.mul_nonneg (Int.le_of_lt hspan) hquot
  rw [← start_eq_mul] at hmul
  rw [start] at hmul ⊢
  omega

/-- A base that is not above zero lies in the cycle that ends at zero, or in one before it. -/
theorem start_of_nonpos (hspan : 0 < w.span) (hbase : w.base ≤ 0) :
    (w.start = 0 ∨ w.start ≤ -w.span) ∧ w.base ≤ w.start ∧ w.start < w.base + w.span := by
  have hneg : w.base.tmod w.span = -((-w.base).tmod w.span) := by rw [Int.neg_tmod, Int.neg_neg]
  have hnonneg := Int.tmod_nonneg w.span (show 0 ≤ -w.base by omega)
  have hlt := Int.tmod_lt_of_pos (-w.base) hspan
  have hquot : w.base.tdiv w.span ≤ 0 := by
    have h := Int.tdiv_nonneg (show 0 ≤ -w.base by omega) (Int.le_of_lt hspan)
    rw [Int.neg_tdiv] at h
    omega
  refine ⟨?_, by rw [start]; omega, by rw [start]; omega⟩
  rcases Int.lt_or_eq_of_le hquot with hquot | hquot
  · have hmul := Int.mul_le_mul_of_nonneg_left (show w.base.tdiv w.span ≤ -1 by omega)
      (Int.le_of_lt hspan)
    rw [start_eq_mul]
    omega
  · rw [start_eq_mul, hquot]
    omega

theorem decode_eq (w : Window) (v : Int) :
    w.decode v =
      if (if 0 < w.base then w.start + v else w.start - v) < w.base then
        (if 0 < w.base then w.start + v else w.start - v) + w.span
      else if 0 < w.base then w.start + v else w.start - v :=
  rfl

/-- Whatever the digits are, they are read as a value of the window. -/
theorem decode_mem (hd : (d : Int) < w.span) :
    w.base ≤ w.decode d ∧ w.decode d < w.base + w.span := by
  have hspan : 0 < w.span := by omega
  rw [decode_eq]
  by_cases hbase : 0 < w.base
  · have hstart := start_of_pos hspan hbase
    simp only [hbase, if_true]
    split <;> omega
  · have hstart := start_of_nonpos hspan (Int.not_lt.1 hbase)
    simp only [hbase, if_false]
    split <;> omega

/-- What digits are read as lies as far behind the start of a cycle as they say, or before it if the
base is not above zero. -/
theorem exists_decode_eq (w : Window) (v : Int) :
    ∃ k, w.decode v = if 0 < w.base then w.span * k + v else w.span * k - v := by
  have hnext : w.span * (w.base.tdiv w.span + 1) = w.start + w.span := by
    rw [start_eq_mul, Int.mul_add, Int.mul_one]
  by_cases hlow : (if 0 < w.base then w.start + v else w.start - v) < w.base
  · refine ⟨w.base.tdiv w.span + 1, ?_⟩
    rw [decode_eq, if_pos hlow, hnext]
    split <;> omega
  · exact ⟨w.base.tdiv w.span, by rw [decode_eq, if_neg hlow, start_eq_mul]⟩

/-- The digits are those of a value that they are read as, if the base is above zero or the value is
not. -/
theorem lastDigits_decode (hd : (d : Int) < w.span) (h : 0 < w.base ∨ w.decode d ≤ 0) :
    w.lastDigits (w.decode d) = d := by
  have hmem := decode_mem hd
  have hmod : (d : Int) % w.span = d := Int.emod_eq_of_lt (Int.natCast_nonneg d) hd
  obtain ⟨k, hk⟩ := exists_decode_eq w d
  by_cases hbase : 0 < w.base
  · rw [if_pos hbase] at hk
    rw [lastDigits, Int.tmod_eq_emod_of_nonneg (by omega), hk, Int.add_comm,
      Int.add_mul_emod_self_left, hmod, Int.natAbs_natCast]
  · have hneg : w.decode d ≤ 0 := h.resolve_left hbase
    rw [if_neg hbase] at hk
    have hcycle : (-w.decode d) % w.span = d := by
      rw [hk, Int.neg_sub, Int.sub_eq_add_neg, ← Int.mul_neg, Int.add_mul_emod_self_left, hmod]
    rw [lastDigits, ← Int.natAbs_neg, ← Int.neg_tmod, Int.tmod_eq_emod_of_nonneg (by omega),
      hcycle, Int.natAbs_natCast]

/-- Digits of a value from the base up to zero are not read as one above zero. -/
theorem decode_nonpos (hspan : 0 < w.span) (hle : w.base ≤ x) (hx : x ≤ 0) :
    w.decode (w.lastDigits x) ≤ 0 := by
  have hbase : ¬ 0 < w.base := by omega
  have hstart := start_of_nonpos hspan (Int.not_lt.1 hbase)
  have hd := lastDigits_lt hspan x
  have hdle := Nat.mod_le x.natAbs w.span.natAbs
  rw [← lastDigits_eq] at hdle
  rw [decode_eq]
  simp only [hbase, if_false]
  split <;> omega

/-- A value of the window is found again from its last digits, if it is not above a base that is
not. -/
theorem decode_lastDigits (hle : w.base ≤ x) (hlt : x < w.base + w.span)
    (hx : 0 < w.base ∨ x ≤ 0) : w.decode (w.lastDigits x) = x := by
  have hspan : 0 < w.span := by omega
  have hd := lastDigits_lt hspan x
  have hmem := decode_mem hd
  have hside : 0 < w.base ∨ w.decode (w.lastDigits x) ≤ 0 :=
    hx.imp_right fun hx => decode_nonpos hspan hle hx
  exact eq_of_lastDigits_eq (by omega) (by omega) (lastDigits_decode hd hside)

/-- Digits are read as the least value from the base on that has them as its last, if the base is
above zero or a value that has them lies between the base and zero. -/
theorem isLeast_decode (hd : (d : Int) < w.span)
    (h : 0 < w.base ∨ ∃ x, w.base ≤ x ∧ x ≤ 0 ∧ w.lastDigits x = d) :
    IsLeast {x | w.base ≤ x ∧ w.lastDigits x = d} (w.decode d) := by
  have hspan : 0 < w.span := by omega
  have hmem := decode_mem hd
  have hside : 0 < w.base ∨ w.decode d ≤ 0 := by
    refine h.imp_right ?_
    rintro ⟨x, hle, hx, rfl⟩
    exact decode_nonpos hspan hle hx
  have hdigits := lastDigits_decode hd hside
  refine ⟨⟨hmem.1, hdigits⟩, ?_⟩
  rintro y ⟨hy, rfl⟩
  refine Int.not_lt.1 fun hlt => ?_
  -- A smaller value would be on the same side of zero and less than a cycle away.
  have heq : y = w.decode (w.lastDigits y) :=
    eq_of_lastDigits_eq (by omega) (by omega) hdigits.symm
  omega

end Window

end DateTimeText
