import DateTimeText.Mode

/-!
# Letters from their case mappings

A row maps no two code points to the same one, so the characters that a table maps to a code point
are found by going back through its rows. Two that are the same letter have one of the mappings of
the other.
-/

namespace DateTimeText

namespace CaseRow

/-- The code point that a row maps to `target`, if there is one. -/
def source? (row : CaseRow) (target : Nat) : Option Nat :=
  let n := row.first + (target - row.target)
  if row.map? n = some target then some n else none

theorem source?_of_map? {row : CaseRow} {n target : Nat} (h : row.map? n = some target) :
    row.source? target = some n := by
  have hn : row.first + (target - row.target) = n := by
    rw [map?] at h
    split at h
    · rename_i hcovers
      cases h
      omega
    · cases h
  rw [source?]
  simp only [hn, h, if_true]

end CaseRow

/-- The code points that some rows map to `target`. -/
def caseSources (rows : List CaseRow) (target : Nat) : List Nat :=
  rows.filterMap (·.source? target)

variable {expansions : List (Nat × List Nat)} {rows : List CaseRow} {n target : Nat}

/-- A code point with a mapping to one code point is this one or is sent there by a row: expansions
have two at least. -/
theorem mem_caseSources_of_caseMapping (hlong : ∀ e ∈ expansions, e.2.length ≠ 1)
    (h : caseMapping expansions rows n = [target]) : n ∈ target :: caseSources rows target := by
  rw [caseMapping] at h
  cases hexpansion : expansions.lookup n with
  | some expansion =>
      rw [hexpansion, Option.getD_some] at h
      obtain ⟨before, after, rfl, -⟩ := List.lookup_eq_some_iff.1 hexpansion
      have hmem : (n, expansion) ∈ before ++ (n, expansion) :: after := by simp
      exact absurd (congrArg List.length h) (hlong _ hmem)
  | none =>
      rw [hexpansion, Option.getD_none, List.singleton_inj] at h
      cases hrow : rows.findSome? (·.map? n) with
      | none =>
          rw [hrow, Option.getD_none] at h
          exact h ▸ List.mem_cons_self
      | some m =>
          rw [hrow, Option.getD_some] at h
          obtain ⟨row, hmem, hmap⟩ := List.exists_of_findSome?_eq_some (h ▸ hrow)
          exact List.mem_cons_of_mem _
            (List.mem_filterMap.2 ⟨row, hmem, CaseRow.source?_of_map? hmap⟩)

/-- The code points of the characters that are the same letter as one with these mappings. -/
def cognates (upper lower : Nat) : List Nat :=
  upper :: caseSources upperRows upper ++ lower :: caseSources lowerRows lower

theorem mem_cognates_of_sameLetter {a c : Char} {upper lower : Nat} (hupper : upperCase a = [upper])
    (hlower : lowerCase a = [lower]) (h : sameLetter a c = true) :
    c = a ∨ c.toNat ∈ cognates upper lower := by
  rw [sameLetter, Bool.or_eq_true, Bool.or_eq_true, beq_iff_eq, beq_iff_eq, beq_iff_eq, hupper,
    hlower] at h
  rcases h with (heq | hmapping) | hmapping
  · exact .inl heq.symm
  · exact .inr (List.mem_append_left _
      (mem_caseSources_of_caseMapping (by decide +kernel) hmapping.symm))
  · exact .inr (List.mem_append_right _
      (mem_caseSources_of_caseMapping (by decide +kernel) hmapping.symm))

/-- An upper-case letter that only its lower-case letter is the same as. A character that is no
letter is both. -/
theorem eq_or_eq_of_sameLetter {a b c : Char} (hupper : upperCase a = [a.toNat])
    (hlower : lowerCase a = [b.toNat])
    (hcognates : ∀ n ∈ cognates a.toNat b.toNat, n = a.toNat ∨ n = b.toNat)
    (h : sameLetter a c = true) : c = a ∨ c = b := by
  rcases mem_cognates_of_sameLetter hupper hlower h with heq | hmem
  · exact .inl heq
  · rcases hcognates _ hmem with ha | hb
    · exact .inl (Char.toNat_inj.1 ha)
    · exact .inr (Char.toNat_inj.1 hb)

/-- Letters start at `A`: no code point below it is in a table or is one that a row maps to. -/
theorem letters_of_A :
    (∀ e ∈ upperExpansions ++ lowerExpansions, 'A'.toNat ≤ e.1) ∧
      ∀ row ∈ upperRows ++ lowerRows, 'A'.toNat ≤ row.first ∧ 'A'.toNat ≤ row.target := by
  decide +kernel

theorem caseMapping_of_lt (hexpansions : ∀ e ∈ expansions, n < e.1)
    (hrows : ∀ row ∈ rows, n < row.first) : caseMapping expansions rows n = [n] := by
  have hlookup : expansions.lookup n = none := by
    refine List.lookup_eq_none_iff.2 fun e he => ?_
    exact bne_iff_ne.2 (Nat.ne_of_lt (hexpansions e he))
  have hfind : rows.findSome? (·.map? n) = none := by
    refine List.findSome?_eq_none_iff.2 fun row hrow => ?_
    rw [CaseRow.map?, if_neg fun hcovers => Nat.not_le_of_lt (hrows row hrow) hcovers.1]
  rw [caseMapping, hlookup, hfind, Option.getD_none, Option.getD_none]

theorem caseSources_of_lt (hrows : ∀ row ∈ rows, target < row.target) :
    caseSources rows target = [] := by
  refine List.filterMap_eq_nil_iff.2 fun row hrow => ?_
  rw [CaseRow.source?]
  refine if_neg fun hmap => ?_
  rw [CaseRow.map?] at hmap
  split at hmap
  · have hlt := hrows row hrow
    have heq := Option.some.inj hmap
    omega
  · cases hmap

/-- Digits, signs and colons have no case: they stand below the letters. -/
theorem eq_of_sameLetter {a c : Char} (ha : a.toNat < 'A'.toNat) (h : sameLetter a c = true) :
    c = a := by
  obtain ⟨hexpansions, hrows⟩ := letters_of_A
  rw [List.forall_mem_append] at hexpansions hrows
  have hbelow {m : Nat} (hm : 'A'.toNat ≤ m) : a.toNat < m := Nat.lt_of_lt_of_le ha hm
  have hupper : upperCase a = [a.toNat] :=
    caseMapping_of_lt (fun e he => hbelow (hexpansions.1 e he))
      fun row hrow => hbelow (hrows.1 row hrow).1
  have hlower : lowerCase a = [a.toNat] :=
    caseMapping_of_lt (fun e he => hbelow (hexpansions.2 e he))
      fun row hrow => hbelow (hrows.2 row hrow).1
  have hcognates : cognates a.toNat a.toNat = [a.toNat, a.toNat] := by
    rw [cognates, caseSources_of_lt fun row hrow => hbelow (hrows.1 row hrow).2,
      caseSources_of_lt fun row hrow => hbelow (hrows.2 row hrow).2]
    rfl
  refine or_self_iff.1 (eq_or_eq_of_sameLetter hupper hlower (fun n hn => ?_) h)
  rw [hcognates] at hn
  simpa using hn

theorem Mode.sameChar_comm (mode : Mode) (a b : Char) :
    mode.sameChar a b = mode.sameChar b a := by
  rw [sameChar, sameChar, Bool.beq_comm, sameLetter_comm]

theorem Mode.eq_of_sameChar {mode : Mode} {a c : Char} (ha : a ∈ ['+', '-', ':', '0'])
    (h : mode.sameChar a c = true) : c = a := by
  rw [sameChar] at h
  split at h
  · exact (beq_iff_eq.1 h).symm
  · have hbelow : ∀ b ∈ ['+', '-', ':', '0'], b.toNat < 'A'.toNat := by simp
    exact eq_of_sameLetter (hbelow a ha) h

theorem eq_of_sameLetter_T {c : Char} (h : sameLetter 'T' c = true) : c = 'T' ∨ c = 't' :=
  eq_or_eq_of_sameLetter (by decide +kernel) (by decide +kernel) (by decide +kernel) h

theorem eq_of_sameLetter_Z {c : Char} (h : sameLetter 'Z' c = true) : c = 'Z' ∨ c = 'z' :=
  eq_or_eq_of_sameLetter (by decide +kernel) (by decide +kernel) (by decide +kernel) h

end DateTimeText
