/-!
# Number symbols

The characters that numbers are written with: ten digits in a row from a zero digit, two signs and a
decimal separator.
-/

namespace DateTimeText

/-- The characters of numbers. -/
structure Symbols where
  zero : Char
  positive : Char
  negative : Char
  decimal : Char
deriving DecidableEq, Repr

namespace Symbols

def standard : Symbols := ⟨'0', '+', '-', '.'⟩

instance : Inhabited Symbols := ⟨standard⟩

/-- The value of a character as a digit. -/
def digit? (s : Symbols) (c : Char) : Option Nat :=
  if s.zero.toNat ≤ c.toNat ∧ c.toNat ≤ s.zero.toNat + 9 then some (c.toNat - s.zero.toNat)
  else none

/-- The digit of these symbols for an ASCII digit. Other characters stay, and so does a digit whose
place is taken by no character. -/
def localizeChar (s : Symbols) (c : Char) : Char :=
  let n := c.toNat + s.zero.toNat - 48
  if c.isDigit ∧ n.isValidChar then Char.ofNat n else c

/-- A text with its ASCII digits replaced by those of these symbols. -/
def localize (s : Symbols) (cs : List Char) : List Char :=
  cs.map s.localizeChar

end Symbols

end DateTimeText
