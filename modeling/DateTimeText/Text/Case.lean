import DateTimeText.Text.CaseTable

/-!
# Letters without regard to case

Two characters are the same letter if they are equal or if their full upper-case or their full
lower-case mappings are.
-/

namespace DateTimeText

/-- The code points that `n` maps to: an expansion, else one code point, else itself. -/
def caseMapping (expansions : List (Nat × List Nat)) (rows : List CaseRow) (n : Nat) : List Nat :=
  (expansions.lookup n).getD [(rows.findSome? (·.map? n)).getD n]

/-- The full upper-case mapping of a character, as code points. -/
def upperCase (c : Char) : List Nat :=
  caseMapping upperExpansions upperRows c.toNat

def lowerCase (c : Char) : List Nat :=
  caseMapping lowerExpansions lowerRows c.toNat

/-- Whether two characters are the same letter in any case. -/
def sameLetter (a b : Char) : Bool :=
  a == b || upperCase a == upperCase b || lowerCase a == lowerCase b

@[simp] theorem sameLetter_self (c : Char) : sameLetter c c = true := by
  simp [sameLetter]

theorem sameLetter_comm (a b : Char) : sameLetter a b = sameLetter b a := by
  simp [sameLetter, Bool.beq_comm (a := a), Bool.beq_comm (a := upperCase a),
    Bool.beq_comm (a := lowerCase a)]

end DateTimeText
