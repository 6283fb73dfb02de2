import DateTimeText.Proofs.Node.Fraction

/-!
# Fractions of a second

The fraction that nanoseconds make of a second has their nine digits.
-/

namespace DateTimeText

namespace Fraction

/-- The fraction of a second with a fixed number of digits and no point. -/
def nanoDigits (width : Nat) : Fraction := ⟨.nanoOfSecond, width, width, false⟩

theorem wellSized_isoNano : isoNano.WellSized :=
  ⟨by decide, by decide, by decide⟩

variable {n : Fraction} {nano : Nat}

theorem valueOf_nano (run : List Nat) :
    valueOf Field.nanoOfSecond.range run =
      (ofDigits run * 1000000000 / tenPow run.length : Nat) := by
  have hspan : Field.nanoOfSecond.range.span = (1000000000 : Nat) := by decide
  have hmin : Field.nanoOfSecond.range.min = 0 := rfl
  rw [valueOf, hspan, hmin, Int.add_zero, ← Int.natCast_mul, ← Int.natCast_ediv]

/-- Nanoseconds are billionths of a second. -/
theorem portion_nano (hnano : nano < tenPow 9) :
    Portion Field.nanoOfSecond.range nano nano (tenPow 9) nano :=
  ⟨(Int.zero_add _).symm, by decide, hnano, Nat.mul_div_cancel nano (tenPow_pos 9)⟩

/-- Nanoseconds are written as the first of their nine digits, and as nothing if these are none. -/
theorem render_nano {s : Symbols} (hs : s.Legible) (hn : n.WellSized)
    (hfield : n.field = .nanoOfSecond) (hnano : nano < tenPow 9) :
    n.render s nano = .ok (if n.scale nano = 0 then []
      else (if n.decimalPoint then [s.decimal] else []) ++
        (paddedDigits (n.scale nano) (nano / tenPow (9 - n.scale nano))).map s.digitChar) :=
  render_eq hs hn (hfield ▸ portion_nano hnano)

end Fraction

end DateTimeText
