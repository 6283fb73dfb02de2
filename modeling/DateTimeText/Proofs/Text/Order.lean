import DateTimeText.Proofs.Text.Digits
import Mathlib.Data.List.Lex

/-!
# The order of texts

Texts are compared character by character, and a text is behind its starts. Numbers that are padded
to one width are in the order of their values, and so are the digits of fractions, of which zeros at
the end may be left out.
-/

namespace DateTimeText

variable {as bs : List Char}

theorem append_lt_append (hlen : as.length = bs.length) (h : as < bs) (cs ds : List Char) :
    as ++ cs < bs ++ ds := by
  induction as generalizing bs with
  | nil =>
      obtain rfl := List.length_eq_zero_iff.1 hlen.symm
      exact absurd h (List.lt_irrefl [])
  | cons a as ih =>
      cases bs with
      | nil => cases hlen
      | cons b bs =>
          rw [List.cons_lt_cons_iff] at h
          rw [List.cons_append, List.cons_append, List.cons_lt_cons_iff]
          rcases h with h | ⟨rfl, h⟩
          · exact .inl h
          · exact .inr ⟨rfl, ih (Nat.succ.inj hlen) h⟩

/-- Zeros at the end do not put a text in front of one that it does not precede without them. -/
theorem lt_of_append_zeros_lt {k l : Nat} (hlen : as.length + k = bs.length + l)
    (has : ∀ c ∈ as, '0' ≤ c)
    (h : as ++ List.replicate k '0' < bs ++ List.replicate l '0') : as < bs := by
  induction as generalizing bs l with
  | nil =>
      cases bs with
      | nil =>
          rw [List.length_nil, Nat.zero_add, Nat.zero_add] at hlen
          rw [hlen] at h
          exact absurd h (List.lt_irrefl _)
      | cons b bs => exact List.nil_lt_cons b bs
  | cons a as ih =>
      rw [List.forall_mem_cons] at has
      cases bs with
      | nil =>
          -- The second text is at its end, and none of its zeros is behind a digit of the first.
          simp only [List.length_cons, List.length_nil] at hlen
          obtain ⟨l, rfl⟩ : ∃ m, l = m + 1 := ⟨as.length + k, by omega⟩
          rw [List.nil_append, List.replicate_succ, List.cons_append, List.cons_lt_cons_iff] at h
          rcases h with h | ⟨rfl, h⟩
          · exact absurd h (Char.not_lt.2 has.1)
          · have hrest : as.length + k = ([] : List Char).length + l := by
              rw [List.length_nil]
              omega
            exact absurd (ih hrest has.2 h) (List.not_lt_nil as)
      | cons b bs =>
          simp only [List.length_cons] at hlen
          rw [List.cons_append, List.cons_append, List.cons_lt_cons_iff] at h
          rw [List.cons_lt_cons_iff]
          rcases h with h | ⟨rfl, h⟩
          · exact .inl h
          · exact .inr ⟨rfl, ih (by omega) has.2 h⟩

theorem zeroPadded_lt_zeroPadded {width m n : Nat} (hwidth : 0 < width) (hn : n < tenPow width)
    (h : m < n) : zeroPadded width m < zeroPadded width n := by
  have hdigit : ∀ b < 10, ∀ a < b, decimal a < decimal b := by decide
  induction hwidth generalizing m n with
  | refl =>
      have hone : ∀ d < 10, zeroPadded 1 d = decimal d := by decide
      change n < 10 at hn
      change zeroPadded 1 m < zeroPadded 1 n
      rw [hone m (h.trans hn), hone n hn]
      exact hdigit n hn m h
  | @step width hwidth ih =>
      have hm : m < tenPow (width + 1) := h.trans hn
      have hsplit : ∀ x, zeroPadded (width + 1) x =
          zeroPadded width (x / 10) ++ decimal (x % 10) := by
        intro x
        rw [← zeroPadded_ten_mul_add hwidth _ (Nat.mod_lt x (by decide)), Nat.div_add_mod]
      have hquot : ∀ {x}, x < tenPow (width + 1) → x / 10 < tenPow width := fun hx =>
        Nat.div_lt_of_lt_mul hx
      change zeroPadded (width + 1) m < zeroPadded (width + 1) n
      rw [hsplit, hsplit]
      rcases Nat.lt_or_ge (m / 10) (n / 10) with hlt | hge
      · apply append_lt_append _ (ih (hquot hn) hlt)
        rw [length_zeroPadded_of_lt hwidth (hquot hm), length_zeroPadded_of_lt hwidth (hquot hn)]
      · have heq : m / 10 = n / 10 := by omega
        rw [heq]
        apply List.append_left_lt
        exact hdigit _ (Nat.mod_lt n (by decide)) _ (by omega)

theorem zeroPadded_append_lt {width m n : Nat} (hwidth : 0 < width) (hn : n < tenPow width)
    {cs ds : List Char} (h : m < n ∨ m = n ∧ cs < ds) :
    zeroPadded width m ++ cs < zeroPadded width n ++ ds := by
  rcases h with h | ⟨rfl, h⟩
  · apply append_lt_append _ (zeroPadded_lt_zeroPadded hwidth hn h)
    rw [length_zeroPadded_of_lt hwidth (h.trans hn), length_zeroPadded_of_lt hwidth hn]
  · exact List.append_left_lt h

theorem zeroPadded_mul_tenPow {width : Nat} (hwidth : 0 < width) (n k : Nat) :
    zeroPadded (width + k) (n * tenPow k) = zeroPadded width n ++ List.replicate k '0' := by
  rcases Nat.eq_zero_or_pos k with rfl | hk
  · rw [tenPow, Nat.mul_one, Nat.add_zero, List.replicate_zero, List.append_nil]
  · have hzeros : zeroPadded k 0 = List.replicate k '0' := by
      obtain ⟨j, rfl⟩ := Nat.exists_eq_succ_of_ne_zero (Nat.pos_iff_ne_zero.1 hk)
      rw [List.replicate_succ']
      rfl
    rw [← hzeros, ← zeroPadded_add hwidth hk n (tenPow_pos k), Nat.add_zero]

theorem zero_le_of_mem_zeroPadded {width n : Nat} {c : Char} (h : c ∈ zeroPadded width n) :
    '0' ≤ c := by
  rcases List.mem_append.1 h with hzero | hdigit
  · obtain rfl := List.eq_of_mem_replicate hzero
    exact Char.le_refl '0'
  · exact (Char.isDigit_iff_toNat.1 (isDigit_of_mem_decimal hdigit)).1

end DateTimeText
