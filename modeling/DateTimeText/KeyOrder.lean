/-!
# Lists in the order of their keys

The rows of a table and the ids of a set stand in the order of a key that no two of them share. An
element is put where its key belongs, in place of the element of this key if there is one.
-/

namespace DateTimeText

/-- The elements stand in the order of their keys, and no two of them share a key. -/
def KeyOrder {α κ : Type} [LT κ] (key : α → κ) (list : List α) : Prop :=
  list.Pairwise fun a b => key a < key b

section

variable {α κ : Type} [LT κ] [DecidableLT κ] (key : α → κ)

instance (list : List α) : Decidable (KeyOrder key list) :=
  inferInstanceAs (Decidable (list.Pairwise fun a b => key a < key b))

variable [DecidableEq κ]

/-- The list with an element in its place, in which it replaces the one of its key. -/
def putByKey (a : α) : List α → List α
  | [] => [a]
  | b :: list =>
    if key a < key b then a :: b :: list
    else if key a = key b then a :: list
    else b :: putByKey a list

/-- The elements of a list in the order of their keys, of which a later one replaces an earlier one
of its key. -/
def putAllByKey (list : List α) : List α :=
  list.foldl (fun put a => putByKey key a put) []

theorem putAllByKey_append_singleton (list : List α) (a : α) :
    putAllByKey key (list ++ [a]) = putByKey key a (putAllByKey key list) :=
  List.foldl_append

end

section

variable {α κ : Type} [LT κ] [LE κ] [Std.LawfulOrderLT κ] [Std.IsLinearOrder κ] {key : α → κ}
  {a b c : α} {list : List α}

theorem KeyOrder.lt_of_lt_head (h : KeyOrder key (c :: list)) (hlt : key a < key c)
    (hb : b ∈ c :: list) : key a < key b := by
  rcases List.mem_cons.1 hb with rfl | hb
  · exact hlt
  · exact Std.lt_trans hlt ((List.pairwise_cons.1 h).1 b hb)

variable [DecidableLT κ] [DecidableEq κ]

theorem mem_putByKey (h : KeyOrder key list) :
    b ∈ putByKey key a list ↔ b = a ∨ b ∈ list ∧ key b ≠ key a := by
  induction list with
  | nil => simp [putByKey]
  | cons c list ih =>
      obtain ⟨hfirst, hlist⟩ := List.pairwise_cons.1 h
      rw [putByKey]
      split
      case isTrue hlt =>
        have hnew : b ∈ c :: list → key b ≠ key a := fun hb =>
          (Std.ne_of_lt (h.lt_of_lt_head hlt hb)).symm
        rw [List.mem_cons, and_iff_left_of_imp hnew]
      case isFalse hlt =>
        split
        case isTrue heq =>
          rw [List.mem_cons, List.mem_cons]
          constructor
          · rintro (rfl | hb)
            · exact .inl rfl
            · exact .inr ⟨.inr hb, heq ▸ (Std.ne_of_lt (hfirst b hb)).symm⟩
          · rintro (rfl | ⟨rfl | hb, hne⟩)
            · exact .inl rfl
            · exact absurd heq.symm hne
            · exact .inr hb
        case isFalse hne =>
          have hother : b = c → key b ≠ key a := by
            rintro rfl
            exact Ne.symm hne
          rw [List.mem_cons, ih hlist, List.mem_cons, or_left_comm, or_and_right,
            and_iff_left_of_imp hother]

theorem KeyOrder.putByKey (h : KeyOrder key list) (a : α) :
    KeyOrder key (putByKey key a list) := by
  induction list with
  | nil => exact List.pairwise_singleton _ a
  | cons c list ih =>
      obtain ⟨hfirst, hlist⟩ := List.pairwise_cons.1 h
      rw [DateTimeText.putByKey]
      split
      case isTrue hlt => exact List.pairwise_cons.2 ⟨fun b hb => h.lt_of_lt_head hlt hb, h⟩
      case isFalse hlt =>
        split
        case isTrue heq => exact List.pairwise_cons.2 ⟨fun b hb => heq ▸ hfirst b hb, hlist⟩
        case isFalse hne =>
          refine List.pairwise_cons.2 ⟨fun b hb => ?_, ih hlist⟩
          rcases (mem_putByKey hlist).1 hb with rfl | ⟨hb, -⟩
          · exact Std.lt_of_le_of_ne (Std.not_lt.1 hlt) (Ne.symm hne)
          · exact hfirst b hb

theorem keyOrder_putAllByKey (key : α → κ) (list : List α) :
    KeyOrder key (putAllByKey key list) := by
  have hrun : ∀ put : List α, KeyOrder key put →
      KeyOrder key (list.foldl (fun put a => putByKey key a put) put) := by
    induction list with
    | nil => exact fun put hput => hput
    | cons a list ih => exact fun put hput => ih _ (hput.putByKey a)
  exact hrun [] List.Pairwise.nil

end

/-! ### Rows of a key and a value -/

section

variable {κ β : Type} {rows : List (κ × β)} {k x : κ} {v : β}

theorem lookup_cons_eq [BEq κ] [LawfulBEq κ] [DecidableEq κ] :
    ((k, v) :: rows).lookup x = if x = k then some v else rows.lookup x := by
  by_cases h : x = k
  · rw [if_pos h, h, List.lookup_cons_self]
  · rw [if_neg h, List.lookup_cons, beq_false_of_ne h]

theorem lookup_putByKey [BEq κ] [LawfulBEq κ] [LT κ] [DecidableLT κ] [DecidableEq κ] :
    (putByKey Prod.fst (k, v) rows).lookup x = if x = k then some v else rows.lookup x := by
  induction rows with
  | nil => exact lookup_cons_eq
  | cons row rows ih =>
      obtain ⟨k', v'⟩ := row
      rw [putByKey]
      split
      case isTrue => exact lookup_cons_eq
      case isFalse =>
        split
        case isTrue heq =>
          rw [lookup_cons_eq, lookup_cons_eq, show k = k' from heq]
          split <;> rfl
        case isFalse hne =>
          rw [lookup_cons_eq, lookup_cons_eq, ih]
          by_cases h : x = k'
          · rw [if_pos h, if_neg (h ▸ Ne.symm hne), if_pos h]
          · rw [if_neg h, if_neg h]

/-- As no two rows share a key, the value of a key is that of its row. -/
theorem KeyOrder.lookup_eq_some_iff [BEq κ] [LawfulBEq κ] [LT κ]
    [Std.Irrefl fun a b : κ => a < b] (h : KeyOrder Prod.fst rows) :
    rows.lookup k = some v ↔ (k, v) ∈ rows := by
  rw [List.lookup_eq_some_iff]
  constructor
  · rintro ⟨before, after, rfl, -⟩
    exact List.mem_append_right before List.mem_cons_self
  · intro hmem
    obtain ⟨before, after, rfl⟩ := List.append_of_mem hmem
    refine ⟨before, after, rfl, fun row hrow => bne_iff_ne.2 ?_⟩
    exact (Std.ne_of_lt ((List.pairwise_append.1 h).2.2 row hrow _ List.mem_cons_self)).symm

end

end DateTimeText
