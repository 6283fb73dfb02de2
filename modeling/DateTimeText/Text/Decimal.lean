/-!
# Decimal digits

The decimal digits of a number, with zeros in front up to a width.
-/

namespace DateTimeText

/-- The decimal digits of `n`, without leading zeros. -/
def decimal (n : Nat) : List Char :=
  Nat.toDigits 10 n

/-- The decimal digits of an integer, after a minus sign if it is negative. -/
def signedDecimal (n : Int) : List Char :=
  if n < 0 then '-' :: decimal n.natAbs else decimal n.natAbs

/-- The digits of `n` with zeros in front, at least `width` of them. -/
def zeroPadded (width n : Nat) : List Char :=
  let digits := decimal n
  List.replicate (width - digits.length) '0' ++ digits

/-- The value of a list of digits, the most significant first. -/
def ofDigits (digits : List Nat) : Nat :=
  digits.foldl (fun total d => 10 * total + d) 0

@[simp] theorem ofDigits_nil : ofDigits [] = 0 := rfl

theorem ofDigits_append_singleton (digits : List Nat) (d : Nat) :
    ofDigits (digits ++ [d]) = 10 * ofDigits digits + d := by
  simp [ofDigits]

/-- The number one with `n` zeros. -/
def tenPow : Nat → Nat
  | 0 => 1
  | n + 1 => 10 * tenPow n

def int64Min : Int := -9223372036854775808

def int64Max : Int := 9223372036854775807

/-- Whether an integer has 64 bits. -/
def FitsInt64 (n : Int) : Prop :=
  int64Min ≤ n ∧ n ≤ int64Max

instance (n : Int) : Decidable (FitsInt64 n) :=
  inferInstanceAs (Decidable (_ ∧ _))

end DateTimeText
