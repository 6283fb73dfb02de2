import DateTimeText.Text.Position

/-!
# Places in the bytes of a text

An end of a text starts at a place that is counted in bytes, and a text that is found at a place is
an end of it. At such a place a byte below 128 is a character of its own, behind which the next one
starts, and every other character starts with a byte from 128 on.
-/

namespace DateTimeText

/-- The place where an end of a text starts. -/
def place (text rest : List Char) : Nat :=
  byteLength text - byteLength rest

variable {text start rest : List Char} {n : Nat}

theorem byteLength_le_of_suffix (h : rest <:+ text) : byteLength rest ≤ byteLength text := by
  obtain ⟨front, rfl⟩ := h
  rw [byteLength_append]
  omega

theorem place_append (front rest : List Char) : place (front ++ rest) rest = byteLength front := by
  rw [place, byteLength_append, Nat.add_sub_cancel]

theorem dropBytes?_place (h : rest <:+ text) : dropBytes? (place text rest) text = some rest := by
  obtain ⟨front, rfl⟩ := h
  rw [place_append, dropBytes?_append]

theorem dropBytes?_eq_some_iff :
    dropBytes? n text = some rest ↔ rest <:+ text ∧ n = place text rest := by
  constructor
  · intro h
    obtain ⟨front, rfl, rfl⟩ := eq_append_of_dropBytes? h
    exact ⟨List.suffix_append front rest, (place_append front rest).symm⟩
  · rintro ⟨hsuffix, rfl⟩
    exact dropBytes?_place hsuffix

theorem place_le_byteLength (text rest : List Char) : place text rest ≤ byteLength text :=
  Nat.sub_le _ _

theorem place_le_place (hrest : rest <:+ start) : place text start ≤ place text rest := by
  have hle := byteLength_le_of_suffix hrest
  unfold place
  omega

theorem place_of_cons {c : Char} (h : c :: rest <:+ text) :
    place text rest = place text (c :: rest) + c.utf8Size := by
  have hle := byteLength_le_of_suffix h
  rw [byteLength_cons] at hle
  rw [place, place, byteLength_cons]
  omega

/-- The bytes of a text in UTF-8. -/
def utf8 (text : List Char) : List UInt8 :=
  text.flatMap String.utf8EncodeChar

/-- The character that a byte below 128 stands for. -/
def asciiAt? (bytes : List UInt8) (n : Nat) : Option Char :=
  (bytes[n]?.filter fun b => decide (b.toNat < 128)).map fun b => Char.ofNat b.toNat

theorem length_utf8 (text : List Char) : (utf8 text).length = byteLength text := by
  induction text with
  | nil => rfl
  | cons c text ih =>
      rw [utf8, List.flatMap_cons, List.length_append, String.length_utf8EncodeChar,
        byteLength_cons]
      exact congrArg _ ih

theorem getElem?_utf8_place (h : start <:+ text) :
    (utf8 text)[place text start]? = (utf8 start).head? := by
  obtain ⟨front, rfl⟩ := h
  have hplace : place (front ++ start) start = (utf8 front).length := by
    rw [length_utf8, place_append]
  have happend : utf8 (front ++ start) = utf8 front ++ utf8 start := List.flatMap_append
  rw [hplace, happend, List.getElem?_append_right (Nat.le_refl _), Nat.sub_self,
    ← List.head?_eq_getElem?]

theorem head?_utf8EncodeChar (c : Char) :
    ∃ b : UInt8, (String.utf8EncodeChar c).head? = some b ∧
      (c.toNat < 128 → b.toNat = c.toNat) ∧ (128 ≤ c.toNat → 128 ≤ b.toNat) := by
  have hval : c.val.toNat = c.toNat := rfl
  unfold String.utf8EncodeChar
  dsimp only
  rw [hval]
  split
  · refine ⟨_, rfl, ?_, ?_⟩ <;> intro h <;> simp only [UInt8.toNat_ofNat'] <;> omega
  split
  · refine ⟨_, rfl, ?_, ?_⟩ <;> intro h <;> simp only [UInt8.toNat_ofNat'] <;> omega
  split
  · refine ⟨_, rfl, ?_, ?_⟩ <;> intro h <;> simp only [UInt8.toNat_ofNat'] <;> omega
  · refine ⟨_, rfl, ?_, ?_⟩ <;> intro h <;> simp only [UInt8.toNat_ofNat'] <;> omega

theorem asciiAt?_place (h : start <:+ text) :
    asciiAt? (utf8 text) (place text start) =
      start.head?.filter fun c => decide (c.toNat < 128) := by
  rw [asciiAt?, getElem?_utf8_place h]
  cases start with
  | nil => rfl
  | cons c rest =>
      obtain ⟨b, hb, hascii, hother⟩ := head?_utf8EncodeChar c
      have hhead : (utf8 (c :: rest)).head? = some b := by
        rw [utf8, List.flatMap_cons, List.head?_append, hb]
        rfl
      rw [hhead, List.head?_cons, Option.filter_some, Option.filter_some]
      by_cases hc : c.toNat < 128
      · have hbc := hascii hc
        simp [hbc, hc]
      · have hbc := hother (Nat.le_of_not_lt hc)
        simp [hc, Nat.not_lt.2 hbc]

theorem place_of_ascii {c : Char} (h : c :: rest <:+ text) (hc : c.toNat < 128) :
    place text rest = place text (c :: rest) + 1 := by
  have hsize : c.utf8Size = 1 := by
    apply Char.utf8Size_eq_one_iff.2
    rw [UInt32.le_iff_toNat_le]
    exact Nat.le_of_lt_succ hc
  rw [place_of_cons h, hsize]

end DateTimeText
