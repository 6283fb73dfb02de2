/-!
# Positions in a text

A position counts the bytes of the UTF-8 encoding. `dropBytes?` finds the text that is left after a
position, if the position lies between two characters.
-/

namespace DateTimeText

/-- The number of bytes of a text in UTF-8. -/
def byteLength : List Char → Nat
  | [] => 0
  | c :: cs => c.utf8Size + byteLength cs

@[simp] theorem byteLength_nil : byteLength [] = 0 := rfl

@[simp] theorem byteLength_cons (c : Char) (cs : List Char) :
    byteLength (c :: cs) = c.utf8Size + byteLength cs := rfl

@[simp] theorem byteLength_append (as bs : List Char) :
    byteLength (as ++ bs) = byteLength as + byteLength bs := by
  induction as with
  | nil => simp
  | cons a as ih => simp [ih, Nat.add_assoc]

/-- The text after its first `n` bytes, or nothing if byte `n` is inside a character or past the
end. -/
def dropBytes? : Nat → List Char → Option (List Char)
  | 0, cs => some cs
  | _ + 1, [] => none
  | n + 1, c :: cs => if c.utf8Size ≤ n + 1 then dropBytes? (n + 1 - c.utf8Size) cs else none

@[simp] theorem dropBytes?_zero (cs : List Char) : dropBytes? 0 cs = some cs := by
  cases cs <;> simp [dropBytes?]

/-- Between two parts of a text lies a character boundary. -/
theorem dropBytes?_append (as bs : List Char) :
    dropBytes? (byteLength as) (as ++ bs) = some bs := by
  induction as with
  | nil => simp
  | cons a as ih =>
      obtain ⟨n, hn⟩ : ∃ n, byteLength (a :: as) = n + 1 :=
        ⟨byteLength (a :: as) - 1, by have := a.utf8Size_pos; simp; omega⟩
      have hle : a.utf8Size ≤ n + 1 := by simp at hn; omega
      have hrest : n + 1 - a.utf8Size = byteLength as := by simp at hn; omega
      rw [hn, List.cons_append, dropBytes?, if_pos hle, hrest, ih]

/-- A text found after `n` bytes is what follows a part of `n` bytes. -/
theorem eq_append_of_dropBytes? {n : Nat} {cs rest : List Char} (h : dropBytes? n cs = some rest) :
    ∃ pre, cs = pre ++ rest ∧ byteLength pre = n := by
  induction cs generalizing n with
  | nil =>
      cases n with
      | zero => exact ⟨[], by simpa using h, rfl⟩
      | succ n => simp [dropBytes?] at h
  | cons c cs ih =>
      cases n with
      | zero => exact ⟨[], by simpa using h, rfl⟩
      | succ n =>
          rw [dropBytes?] at h
          split at h
          · obtain ⟨pre, rfl, hpre⟩ := ih h
            exact ⟨c :: pre, rfl, by simp [hpre]; omega⟩
          · simp at h

/-- The first 64 characters of a text, with three dots if there are more. -/
def abbreviate (cs : List Char) : List Char :=
  if cs.length > 64 then cs.take 64 ++ ['.', '.', '.'] else cs

end DateTimeText
