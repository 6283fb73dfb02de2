import DateTimeText.Proofs.Text.Digits
import Mathlib.Data.List.Induction

/-!
# Sums of digits in machine words

The digits of a number are summed in 128 bits, where a sum that does not fit stays at the bound. No
row of up to 38 digits gets there. What is done with the number after that is done in 64 bits. The
digits of a fraction are summed in 128 bits without a bound to stay at, and so is what is done with
them: `inInt64?` and `inInt128?` give nothing for a step that does not fit.
-/

namespace DateTimeText

/-- The integer of 128 bits that is nearest to an integer. -/
def saturate128 (n : Int) : Int :=
  max (-170141183460469231731687303715884105728) (min n 170141183460469231731687303715884105727)

/-- The value of digits as it is summed in 128 bits, the most significant first. -/
def ofDigitsSaturating (digits : List Nat) : Int :=
  digits.foldl (fun (total : Int) (d : Nat) => saturate128 (saturate128 (total * 10) + d)) 0

/-- An integer, unless it needs more than 64 bits. -/
def inInt64? (n : Int) : Option Int :=
  if FitsInt64 n then some n else none

theorem inInt64?_eq_some {n : Int} (h : FitsInt64 n) : inInt64? n = some n :=
  if_pos h

theorem saturate128_natCast {n : Nat} (h : n < tenPow 38) : saturate128 n = n := by
  have hpow : tenPow 38 = 100000000000000000000000000000000000000 := rfl
  unfold saturate128
  omega

/-- Up to 38 digits are summed without reaching a bound. -/
theorem ofDigitsSaturating_eq {ds : List Nat} (hds : ∀ d ∈ ds, d < 10) (hlen : ds.length ≤ 38) :
    ofDigitsSaturating ds = ofDigits ds := by
  induction ds using List.reverseRecOn with
  | nil => rfl
  | append_singleton ds d ih =>
      have hvalue := ofDigits_lt_of_length_le hds hlen
      rw [ofDigits_append_singleton] at hvalue ⊢
      rw [List.forall_mem_append] at hds
      rw [List.length_append, List.length_singleton] at hlen
      have hsum : ofDigitsSaturating (ds ++ [d]) =
          saturate128 (saturate128 (ofDigitsSaturating ds * 10) + d) := by
        rw [ofDigitsSaturating, List.foldl_append]
        rfl
      have hten : ((ofDigits ds : Nat) : Int) * 10 = ((10 * ofDigits ds : Nat) : Int) := by omega
      rw [hsum, ih hds.1 (by omega), hten, saturate128_natCast (by omega), ← Int.natCast_add,
        saturate128_natCast (by omega)]

/-- Whether an integer has 128 bits. -/
def FitsInt128 (n : Int) : Prop :=
  -170141183460469231731687303715884105728 ≤ n ∧ n ≤ 170141183460469231731687303715884105727

instance (n : Int) : Decidable (FitsInt128 n) :=
  inferInstanceAs (Decidable (_ ∧ _))

/-- An integer, unless it needs more than 128 bits. -/
def inInt128? (n : Int) : Option Int :=
  if FitsInt128 n then some n else none

theorem inInt128?_eq_some {n : Int} (h : FitsInt128 n) : inInt128? n = some n :=
  if_pos h

/-- The value of digits, found in 128 bits. -/
def ofDigits128? (digits : List Nat) : Option Int :=
  digits.foldlM (fun (total : Int) (d : Nat) => do inInt128? ((← inInt128? (total * 10)) + d)) 0

theorem ofDigits128?_eq {ds : List Nat} (hds : ∀ d ∈ ds, d < 10) (hlen : ds.length ≤ 38) :
    ofDigits128? ds = some (ofDigits ds : Int) := by
  induction ds using List.reverseRecOn with
  | nil => rfl
  | append_singleton ds d ih =>
      have hvalue := ofDigits_lt_of_length_le hds hlen
      have hpow : tenPow 38 = 100000000000000000000000000000000000000 := rfl
      rw [ofDigits_append_singleton] at hvalue ⊢
      rw [List.forall_mem_append] at hds
      rw [List.length_append, List.length_singleton] at hlen
      have hsum : ofDigits128? (ds ++ [d]) =
          (ofDigits128? ds).bind fun total =>
            (inInt128? (total * 10)).bind fun tens => inInt128? (tens + d) := by
        rw [ofDigits128?, List.foldlM_append]
        simp [ofDigits128?]
      have htens : FitsInt128 ((ofDigits ds : Int) * 10) := ⟨by omega, by omega⟩
      have htotal : FitsInt128 ((ofDigits ds : Int) * 10 + d) := ⟨by omega, by omega⟩
      rw [hsum, ih hds.1 (by omega), Option.bind_some, inInt128?_eq_some htens, Option.bind_some,
        inInt128?_eq_some htotal]
      congr 1
      omega

end DateTimeText
