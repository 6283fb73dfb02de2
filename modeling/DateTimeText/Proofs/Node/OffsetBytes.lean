import DateTimeText.Proofs.Node.Cursor
import DateTimeText.Proofs.Text.Bytes

/-!
# Offsets in the bytes of a text

Signs, colons and digits of an offset are single bytes. Reading them at places in the bytes finds
the same offsets as reading characters, and comes to the places where the characters come to.
-/

namespace DateTimeText

namespace OffsetForm

variable (bytes : List UInt8)

def digitAt? (n : Nat) : Option Char :=
  (asciiAt? bytes n).filter Char.isDigit

/-- Reads two digits of a number below sixty at a place. -/
def pairAt? (n : Nat) : Option (Nat × Nat) :=
  match digitAt? bytes n, digitAt? bytes (n + 1) with
  | some a, some b =>
    let v := 10 * (a.toNat - 48) + (b.toNat - 48)
    if v < 60 then some (v, n + 2) else none
  | _, _ => none

def nextAt? (colons : Bool) (n : Nat) : Option (Nat × Nat) :=
  if colons then if asciiAt? bytes n = some ':' then pairAt? bytes (n + 1) else none
  else pairAt? bytes n

def partAt? (use : PartUse) (colons : Bool) (n : Nat) : Option (Nat × Nat) :=
  match use with
  | .absent => some (0, n)
  | .optional => (nextAt? bytes colons n).or (some (0, n))
  | .mandatory => nextAt? bytes colons n

def partsAt? (p : OffsetPattern) (n : Nat) : Option (Nat × Nat) := do
  let (hours, n) ← pairAt? bytes n
  let (minutes, n) ← partAt? bytes p.minutes p.hasColons n
  let (seconds, n) ← partAt? bytes p.secondsRead p.hasColons n
  return (hours * 3600 + minutes * 60 + seconds, n)

/-- Reads an offset with its sign at a place. -/
def signedAt? (p : OffsetPattern) (n : Nat) : Option (Int × Nat) :=
  if asciiAt? bytes n = some '+' then
    (partsAt? bytes p (n + 1)).map fun (v, n) => ((v : Int), n)
  else if asciiAt? bytes n = some '-' then
    (partsAt? bytes p (n + 1)).map fun (v, n) => (-(v : Int), n)
  else none

variable {text start : List Char}

theorem toNat_lt_of_isDigit {c : Char} (h : c.isDigit = true) : c.toNat < 128 := by
  have hle := (Char.isDigit_iff_toNat.1 h).2
  have h57 : '9'.toNat = 57 := rfl
  omega

theorem asciiAt?_place_eq_some_iff (h : start <:+ text) {c : Char} (hc : c.toNat < 128) :
    asciiAt? (utf8 text) (place text start) = some c ↔ ∃ rest, start = c :: rest := by
  rw [asciiAt?_place h, Option.filter_eq_some_iff, List.head?_eq_some_iff]
  simp [hc]

theorem digitAt?_place (h : start <:+ text) :
    digitAt? (utf8 text) (place text start) = start.head?.filter Char.isDigit := by
  rw [digitAt?, asciiAt?_place h, Option.filter_filter]
  congr 1
  funext c
  by_cases hc : c.isDigit = true
  · simp [hc, toNat_lt_of_isDigit hc]
  · simp [hc]

theorem pairAt?_place (h : start <:+ text) :
    pairAt? (utf8 text) (place text start) =
      (readPair? start).map fun (v, rest) => (v, place text rest) := by
  rw [pairAt?, digitAt?_place h]
  rcases start with _ | ⟨a, start⟩
  · rfl
  by_cases ha : a.isDigit = true
  · have htail : start <:+ text := (List.suffix_cons a start).trans h
    have hplace := place_of_ascii h (toNat_lt_of_isDigit ha)
    rw [List.head?_cons, Option.filter_some, if_pos ha, ← hplace, digitAt?_place htail]
    rcases start with _ | ⟨b, rest⟩
    · rfl
    rw [List.head?_cons, Option.filter_some]
    by_cases hb : b.isDigit = true
    · have hplace' := place_of_ascii htail (toNat_lt_of_isDigit hb)
      rw [hplace] at hplace'
      rw [if_pos hb, readPair?]
      simp only [ha, hb, true_and]
      split
      · rw [Option.map_some, hplace']
      · rfl
    · rw [if_neg hb, readPair?]
      simp [hb]
  · have hnone : readPair? (a :: start) = none := by
      rcases start with _ | ⟨b, rest⟩ <;> simp [readPair?, ha]
    rw [hnone, List.head?_cons, Option.filter_some, if_neg ha]
    rfl

theorem nextAt?_place (colons : Bool) (h : start <:+ text) :
    nextAt? (utf8 text) colons (place text start) =
      (readNext? colons start).map fun (v, rest) => (v, place text rest) := by
  cases colons with
  | false => exact pairAt?_place h
  | true =>
      have hcolon := asciiAt?_place_eq_some_iff (c := ':') h (by decide)
      by_cases hstart : ∃ rest, start = ':' :: rest
      · have hread := hcolon.2 hstart
        obtain ⟨rest, rfl⟩ := hstart
        have hrest : rest <:+ text := (List.suffix_cons ':' rest).trans h
        rw [nextAt?, if_pos rfl, if_pos hread, ← place_of_ascii h (by decide), pairAt?_place hrest]
        rfl
      · have hnone : readNext? true start = none := by
          unfold readNext?
          rw [if_pos rfl]
          split
          · rename_i rest
            exact absurd ⟨rest, rfl⟩ hstart
          · rfl
        rw [nextAt?, if_pos rfl, if_neg (mt hcolon.1 hstart), hnone]
        rfl

theorem partAt?_place (use : PartUse) (colons : Bool) (h : start <:+ text) :
    partAt? (utf8 text) use colons (place text start) =
      (readPart? use colons start).map fun (v, rest) => (v, place text rest) := by
  cases use with
  | absent => rfl
  | optional =>
      rw [partAt?, readPart?, nextAt?_place colons h, Option.map_or]
      rfl
  | mandatory => exact nextAt?_place colons h

theorem partsAt?_place (p : OffsetPattern) (h : start <:+ text) :
    partsAt? (utf8 text) p (place text start) =
      (readParts? p start).map fun (v, rest) => (v, place text rest) := by
  rw [partsAt?, readParts?, pairAt?_place h]
  rcases hhours : readPair? start with _ | ⟨hours, afterHours⟩
  · rfl
  have h1 := (suffix_of_readPair? hhours).trans h
  simp only [Option.map_some, Option.bind_eq_bind, Option.bind_some]
  rw [partAt?_place _ _ h1]
  rcases hminutes : readPart? p.minutes p.hasColons afterHours with _ | ⟨minutes, afterMinutes⟩
  · rfl
  have h2 := (suffix_of_readPart? hminutes).trans h1
  simp only [Option.map_some, Option.bind_some]
  rw [partAt?_place _ _ h2]
  rcases readPart? p.secondsRead p.hasColons afterMinutes with _ | ⟨seconds, afterSeconds⟩
  · rfl
  · rfl

theorem signedAt?_place (p : OffsetPattern) (h : start <:+ text) :
    signedAt? (utf8 text) p (place text start) =
      (readSigned? p start).map fun (total, rest) => (total, place text rest) := by
  have hplus := asciiAt?_place_eq_some_iff (c := '+') h (by decide)
  have hminus := asciiAt?_place_eq_some_iff (c := '-') h (by decide)
  rw [signedAt?]
  by_cases h1 : ∃ rest, start = '+' :: rest
  · have hread := hplus.2 h1
    obtain ⟨rest, rfl⟩ := h1
    have hrest : rest <:+ text := (List.suffix_cons '+' rest).trans h
    rw [if_pos hread, ← place_of_ascii h (by decide), partsAt?_place p hrest]
    simp only [readSigned?, Option.map_map, Function.comp_def]
  rw [if_neg (mt hplus.1 h1)]
  by_cases h2 : ∃ rest, start = '-' :: rest
  · have hread := hminus.2 h2
    obtain ⟨rest, rfl⟩ := h2
    have hrest : rest <:+ text := (List.suffix_cons '-' rest).trans h
    rw [if_pos hread, ← place_of_ascii h (by decide), partsAt?_place p hrest]
    simp only [readSigned?, Option.map_map, Function.comp_def]
  · have hnone : readSigned? p start = none := by
      unfold readSigned?
      split
      · rename_i rest
        exact absurd ⟨rest, rfl⟩ h1
      · rename_i rest
        exact absurd ⟨rest, rfl⟩ h2
      · rfl
    rw [if_neg (mt hminus.1 h2), hnone]
    rfl

end OffsetForm

end DateTimeText
