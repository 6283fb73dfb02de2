import DateTimeText.Node.Parse

/-!
# Where reading stops

Whether a node is read or not, what it leaves is the end of the text that it was given. It holds of
the leaves one by one, and a tree passes on what its nodes leave: a pad reads its node in a window
of the text and puts the text beyond the window behind what is left of it.
-/

namespace DateTimeText

/-- A result that leaves the end of a text. -/
def StopsIn (text : List Char) : Except (List Char) (List Char) → Prop
  | .ok rest => rest <:+ text
  | .error rest => rest <:+ text

/-- A reading that leaves the end of a text, and whose values are found at fault within the text and
not behind what was read. -/
def ReadsIn (text : List Char) : Except (List Char) Reading → Prop
  | .ok r => r.rest <:+ r.conflictAt ∧ r.conflictAt <:+ text
  | .error rest => rest <:+ text

theorem stopsIn_error (text : List Char) : StopsIn text (.error text) :=
  List.suffix_rfl

theorem readsIn_error (text : List Char) : ReadsIn text (.error text) :=
  List.suffix_rfl

theorem StopsIn.trans {text start : List Char} {r : Except (List Char) (List Char)}
    (hr : StopsIn start r) (hstart : start <:+ text) : StopsIn text r := by
  cases r with
  | ok rest => exact List.IsSuffix.trans hr hstart
  | error rest => exact List.IsSuffix.trans hr hstart

theorem ReadsIn.trans {text start : List Char} {r : Except (List Char) Reading}
    (hr : ReadsIn start r) (hstart : start <:+ text) : ReadsIn text r := by
  cases r with
  | ok reading => exact ⟨hr.1, hr.2.trans hstart⟩
  | error rest => exact List.IsSuffix.trans hr hstart

theorem Mode.suffix_of_strip? {mode : Mode} {expected text rest : List Char}
    (h : mode.strip? expected text = some rest) : rest <:+ text := by
  induction expected generalizing text with
  | nil =>
      cases h
      exact List.suffix_rfl
  | cons e expected ih =>
      cases text with
      | nil => simp [strip?] at h
      | cons c text =>
          rw [strip?] at h
          split at h
          · exact (ih h).trans (List.suffix_cons c text)
          · simp at h

namespace Symbols

variable (s : Symbols)

theorem isSome_digit?_of_mem_take {limit k : Nat} {text : List Char}
    (hk : k ≤ (s.digitRun limit text).length) :
    ∀ c ∈ text.take k, (s.digit? c).isSome := by
  induction text generalizing limit k with
  | nil => simp
  | cons c text ih =>
      intro d hd
      rcases limit with _ | limit
      · simp [digitRun] at hk
        simp [hk] at hd
      rcases k with _ | k
      · simp at hd
      rw [digitRun] at hk
      split at hk
      · rename_i v hv
        rw [List.take_succ_cons, List.mem_cons] at hd
        rcases hd with rfl | hd
        · simp [hv]
        · exact ih (by simpa using hk) d hd
      · simp at hk

end Symbols

namespace Numeral

variable (n : Numeral) (s : Symbols) (strict : Bool) (sign : Option Sign)

/-- Digits are refused where they start or where their sign stands; else some of those that are
there are taken, also where a number leaves its last digit. -/
theorem readDigits_cases (start body : List Char) :
    n.readDigits s strict sign start body = .error body ∨
      n.readDigits s strict sign start body = .error start ∨
      ∃ k ≤ (s.digitRun (n.maxWidth + n.reserved) body).length, ∃ value,
        n.readDigits s strict sign start body =
          .ok (.value n.field value body (body.drop k)) := by
  unfold readDigits
  extract_lets least run count total value padded
  by_cases hleast : run.length < least
  · exact .inl (if_pos hleast)
  have hcount : count ≤ run.length := Nat.max_le.2 ⟨Nat.le_of_not_lt hleast, Nat.sub_le _ _⟩
  rw [if_neg hleast]
  split
  · exact .inr (.inl rfl)
  split
  · exact .inr (.inl rfl)
  split
  · exact .inl rfl
  split
  · exact .inr (.inr ⟨count, hcount, _, rfl⟩)
  · exact .inr (.inr ⟨count - 1, Nat.le_trans (Nat.sub_le _ 1) hcount, _, rfl⟩)

/-- What a number takes behind its sign are digits of the text. -/
theorem readDigits_eq_append {start body : List Char} {r : Reading}
    (h : n.readDigits s strict sign start body = .ok r) :
    ∃ digits, body = digits ++ r.rest ∧ ∀ c ∈ digits, (s.digit? c).isSome := by
  rcases n.readDigits_cases s strict sign start body with hr | hr | ⟨k, hk, value, hr⟩
  · simp [hr] at h
  · simp [hr] at h
  · rw [hr] at h
    cases h
    exact ⟨body.take k, (List.take_append_drop k body).symm, s.isSome_digit?_of_mem_take hk⟩

theorem readDigits_readsIn {start body : List Char} (hbody : body <:+ start) :
    ReadsIn start (n.readDigits s strict sign start body) := by
  rcases n.readDigits_cases s strict sign start body with hr | hr | ⟨k, -, value, hr⟩
  · rw [hr]
    exact hbody
  · rw [hr]
    exact readsIn_error start
  · rw [hr]
    exact ⟨List.drop_suffix k body, hbody⟩

theorem read_readsIn (text : List Char) : ReadsIn text (n.read s strict text) := by
  cases text with
  | nil => exact readsIn_error []
  | cons c rest =>
      rw [read]
      split
      · split
        · exact n.readDigits_readsIn s strict _ (List.suffix_cons c rest)
        · exact readsIn_error _
      split
      · split
        · exact n.readDigits_readsIn s strict _ (List.suffix_cons c rest)
        · exact readsIn_error _
      split
      · exact readsIn_error _
      · exact n.readDigits_readsIn s strict _ List.suffix_rfl

end Numeral

namespace Fraction

variable (n : Fraction) (s : Symbols)

theorem readDigits_readsIn (least most : Nat) (body : List Char) :
    ReadsIn body (n.readDigits s least most body) := by
  unfold readDigits
  dsimp only
  split
  · exact readsIn_error body
  · exact ⟨List.drop_suffix _ _, List.suffix_rfl⟩

theorem read_readsIn (strict : Bool) (text : List Char) :
    ReadsIn text (n.read s strict text) := by
  have hmissing : ∀ least : Nat,
      ReadsIn text (if 0 < least then .error text else .ok (.skip text)) := by
    intro least
    split
    · exact readsIn_error text
    · exact ⟨List.suffix_rfl, List.suffix_rfl⟩
  unfold read
  dsimp only
  cases text with
  | nil => exact hmissing _
  | cons c rest =>
      dsimp only
      split
      · split
        · exact (n.readDigits_readsIn s _ _ rest).trans (List.suffix_cons c rest)
        · exact hmissing _
      · exact n.readDigits_readsIn s _ _ (c :: rest)

end Fraction

namespace TextField

theorem suffix_of_firstMatch? {mode : Mode} {text rest : List Char} {value : Int}
    {entries : List (String × Int)} (h : firstMatch? mode text entries = some (value, rest)) :
    rest <:+ text := by
  induction entries with
  | nil => simp [firstMatch?] at h
  | cons entry entries ih =>
      rw [firstMatch?] at h
      split at h
      · rename_i left hleft
        cases h
        exact Mode.suffix_of_strip? hleft
      · exact ih h

theorem read_readsIn (n : TextField) (s : Symbols) (locale : String) (mode : Mode)
    (text : List Char) : ReadsIn text (n.read s locale mode text) := by
  unfold read
  split
  · exact n.number.read_readsIn s mode.strict text
  · split
    · rename_i hmatch
      exact ⟨suffix_of_firstMatch? hmatch, List.suffix_rfl⟩
    · split
      · exact readsIn_error text
      · exact n.number.read_readsIn s mode.strict text

end TextField

namespace OffsetForm

theorem suffix_of_readPair? {text rest : List Char} {n : Nat}
    (h : readPair? text = some (n, rest)) : rest <:+ text := by
  rcases text with _ | ⟨a, _ | ⟨b, text⟩⟩
  · simp [readPair?] at h
  · simp [readPair?] at h
  · rw [readPair?] at h
    split at h
    · cases h
      exact (List.suffix_cons b _).trans (List.suffix_cons a _)
    · simp at h

theorem suffix_of_readNext? {colons : Bool} {text rest : List Char} {n : Nat}
    (h : readNext? colons text = some (n, rest)) : rest <:+ text := by
  unfold readNext? at h
  split at h
  · split at h
    · exact (suffix_of_readPair? h).trans (List.suffix_cons ':' _)
    · simp at h
  · exact suffix_of_readPair? h

theorem suffix_of_readPart? {use : PartUse} {colons : Bool} {text rest : List Char} {n : Nat}
    (h : readPart? use colons text = some (n, rest)) : rest <:+ text := by
  cases use with
  | absent =>
      cases h
      exact List.suffix_rfl
  | optional =>
      rcases Option.or_eq_some_iff.1 h with hnext | ⟨-, hmissing⟩
      · exact suffix_of_readNext? hnext
      · cases hmissing
        exact List.suffix_rfl
  | mandatory => exact suffix_of_readNext? h

theorem suffix_of_readParts? {p : OffsetPattern} {text rest : List Char} {n : Nat}
    (h : readParts? p text = some (n, rest)) : rest <:+ text := by
  simp only [readParts?, Option.bind_eq_bind, Option.bind_eq_some_iff, Prod.exists,
    Option.some.injEq, Prod.mk.injEq, pure] at h
  obtain ⟨hours, afterHours, hhours, minutes, afterMinutes, hminutes, seconds, afterSeconds,
    hseconds, -, rfl⟩ := h
  have h1 := suffix_of_readPair? hhours
  have h2 := suffix_of_readPart? hminutes
  have h3 := suffix_of_readPart? hseconds
  exact h3.trans (h2.trans h1)

theorem suffix_of_readSigned? {p : OffsetPattern} {text rest : List Char} {total : Int}
    (h : readSigned? p text = some (total, rest)) : rest <:+ text := by
  unfold readSigned? at h
  split at h
  · obtain ⟨⟨n, left⟩, hparts, hrest⟩ := Option.map_eq_some_iff.1 h
    cases hrest
    exact (suffix_of_readParts? hparts).trans (List.suffix_cons '+' _)
  · obtain ⟨⟨n, left⟩, hparts, hrest⟩ := Option.map_eq_some_iff.1 h
    cases hrest
    exact (suffix_of_readParts? hparts).trans (List.suffix_cons '-' _)
  · simp at h

theorem suffix_of_readZero? {o : OffsetForm} {mode : Mode} {text rest : List Char}
    (h : o.readZero? mode text = some rest) : rest <:+ text := by
  unfold readZero? at h
  split at h
  · split at h
    · cases h
      exact List.nil_suffix
    · simp at h
  · split at h
    · simp at h
    · exact Mode.suffix_of_strip? h

theorem suffix_of_read? {o : OffsetForm} {mode : Mode} {text rest : List Char} {total : Int}
    (h : o.read? mode text = some (total, rest)) : rest <:+ text := by
  rcases Option.or_eq_some_iff.1 h with hzero | ⟨-, hother⟩
  · obtain ⟨left, hleft, hrest⟩ := Option.map_eq_some_iff.1 hzero
    cases hrest
    exact suffix_of_readZero? hleft
  rcases Option.or_eq_some_iff.1 hother with hsigned | ⟨-, hmissing⟩
  · exact suffix_of_readSigned? hsigned
  · split at hmissing
    · cases hmissing
      exact List.suffix_rfl
    · simp at hmissing

theorem read_readsIn (o : OffsetForm) (mode : Mode) (text : List Char) :
    ReadsIn text (o.read mode text) := by
  unfold read
  split
  · rename_i hread
    exact ⟨suffix_of_read? hread, List.suffix_rfl⟩
  · exact readsIn_error text

end OffsetForm

mutual

/-- A region id is found as a start of the text. -/
theorem IdTree.prefix_of_longest? {known : List Char → Bool} {text id : List Char} :
    ∀ {tree : IdTree}, tree.longest? known text = some id → id <+: text
  | empty => by
      intro h
      simp [longest?] at h
  | level n branches => by
      intro h
      rw [longest?] at h
      split at h
      · simp at h
      rcases Option.or_eq_some_iff.1 h with hbelow | ⟨-, hhere⟩
      · exact IdTree.prefix_of_longestBelow? hbelow
      · split at hhere
        · cases hhere
          exact List.take_prefix n text
        · simp at hhere

theorem IdTree.prefix_of_longestBelow? {known : List Char → Bool} {text key id : List Char} :
    ∀ {branches : List (List Char × IdTree)},
      IdTree.longestBelow? known text key branches = some id → id <+: text
  | [] => by
      intro h
      simp [longestBelow?] at h
  | (k, tree) :: branches => by
      intro h
      rw [longestBelow?] at h
      split at h
      · exact IdTree.prefix_of_longest? h
      · exact IdTree.prefix_of_longestBelow? h

end

theorem ZoneIds.prefix_of_longest? {zones : ZoneIds} {text id : List Char}
    (h : zones.longest? text = some id) : id <+: text :=
  IdTree.prefix_of_longest? h

namespace ZoneQuery

theorem suffix_of_readOffset? {text rest : List Char} {zone : ZoneId}
    (h : readOffset? text = some (zone, rest)) : rest <:+ text := by
  unfold readOffset? at h
  split at h
  · rename_i hread
    split at h
    · cases h
      exact OffsetForm.suffix_of_read? hread
    · simp at h
  · simp at h

theorem readAfterUtc_readsIn (text : List Char) : ReadsIn text (.ok (readAfterUtc text)) := by
  unfold readAfterUtc
  split
  · rename_i hread
    exact ⟨List.suffix_rfl, suffix_of_readOffset? hread⟩
  · exact ⟨List.suffix_rfl, List.suffix_rfl⟩

theorem readRegion_readsIn (zones : ZoneIds) (text : List Char) :
    ReadsIn text (readRegion zones text) := by
  unfold readRegion
  split
  · exact ⟨List.suffix_rfl, List.drop_suffix _ _⟩
  · split
    · exact ⟨List.suffix_rfl, List.suffix_cons 'Z' _⟩
    · exact readsIn_error text

theorem read_readsIn (zones : ZoneIds) (text : List Char) : ReadsIn text (read zones text) := by
  have hprefix : ∀ letters rest : List Char,
      ReadsIn (letters ++ rest) (.ok (readAfterUtc rest)) :=
    fun letters rest => (readAfterUtc_readsIn rest).trans (List.suffix_append letters rest)
  unfold read
  split
  · exact readsIn_error []
  · exact hprefix ['U', 'T', 'C'] _
  · exact hprefix ['U', 'T'] _
  · exact hprefix ['G', 'M', 'T'] _
  · split
    · split
      · rename_i hread
        exact ⟨List.suffix_rfl, suffix_of_readOffset? hread⟩
      · exact readsIn_error _
    · exact readRegion_readsIn zones _

end ZoneQuery

namespace Chronology

/-- What is left behind the best id so far is an end of the text, id after id. -/
theorem suffix_of_longest? {mode : Mode} {chronologies : List Chronology} {text rest : List Char}
    {chronology : Chronology} (h : longest? mode chronologies text = some (chronology, rest)) :
    rest <:+ text := by
  have hbetter : ∀ (best : Option (Chronology × List Char)) (next : Chronology),
      (∀ found ∈ best, found.2 <:+ text) →
        ∀ found ∈ better mode text best next, found.2 <:+ text := by
    intro best next hbest found hfound
    unfold better at hfound
    split at hfound
    · exact hbest found hfound
    split at hfound
    · rename_i hstrip
      cases hfound
      exact Mode.suffix_of_strip? hstrip
    · exact hbest found hfound
  have hall : ∀ (chronologies : List Chronology) (best : Option (Chronology × List Char)),
      (∀ found ∈ best, found.2 <:+ text) →
        ∀ found ∈ chronologies.foldl (better mode text) best, found.2 <:+ text := by
    intro chronologies
    induction chronologies with
    | nil =>
        intro best hbest
        exact hbest
    | cons next chronologies ih =>
        intro best hbest
        exact ih _ (hbetter best next hbest)
  exact hall chronologies none (by simp) _ h

theorem read_readsIn (mode : Mode) (chronologies : List Chronology) (text : List Char) :
    ReadsIn text (read mode chronologies text) := by
  unfold read
  split
  · rename_i hread
    exact ⟨List.suffix_rfl, suffix_of_longest? hread⟩
  · exact readsIn_error text

end Chronology

namespace Leaf

theorem readLiteral_readsIn (mode : Mode) (literal text : List Char) :
    ReadsIn text (readLiteral mode literal text) := by
  unfold readLiteral
  split
  · rename_i hstrip
    exact ⟨List.suffix_rfl, Mode.suffix_of_strip? hstrip⟩
  · exact readsIn_error text

theorem read_readsIn (s : Settings) (mode : Mode) (text : List Char) (l : Leaf) :
    ReadsIn text (l.read s mode text) := by
  cases l with
  | literal l => exact readLiteral_readsIn mode l text
  | numeral n => exact n.read_readsIn s.symbols mode.strict text
  | fraction n => exact n.read_readsIn s.symbols mode.strict text
  | text n => exact n.read_readsIn s.symbols s.locale mode text
  | offset o => exact o.read_readsIn mode text
  | zone q => exact ZoneQuery.read_readsIn s.zones text
  | zoneText style => exact readsIn_error text
  | chronology style => exact Chronology.read_readsIn mode s.chronologies text

end Leaf

theorem Context.storeResult_stopsIn (c : Context) {text : List Char}
    {r : Except (List Char) Reading} (hr : ReadsIn text r) :
    StopsIn text (c.storeResult r).2 := by
  cases r with
  | error rest => exact hr
  | ok reading =>
      unfold storeResult store
      dsimp only
      split
      · exact hr.2
      · exact hr.1.trans hr.2

/-- A window of the text has the text beyond it behind it. -/
theorem Mode.leaveWindow_stopsIn (mode : Mode) {body window : List Char} (beyond : List Char)
    {r : Except (List Char) (List Char)} (hbody : body <:+ window) (hr : StopsIn body r) :
    StopsIn (window ++ beyond) (mode.leaveWindow body beyond r) := by
  have hbeyond : ∀ {rest : List Char}, rest <:+ window → rest ++ beyond <:+ window ++ beyond := by
    rintro rest ⟨front, rfl⟩
    exact ⟨front, (List.append_assoc ..).symm⟩
  cases r with
  | ok rest =>
      rw [leaveWindow]
      split
      · exact hbeyond hbody
      · exact hbeyond (List.IsSuffix.trans hr hbody)
  | error rest => exact hbeyond (List.IsSuffix.trans hr hbody)

namespace Node

theorem instantReading_readsIn (v : Components) {text rest : List Char} (hrest : rest <:+ text) :
    ReadsIn text (instantReading v text rest) := by
  unfold instantReading
  split
  · exact ⟨hrest, List.suffix_rfl⟩
  · exact readsIn_error text

variable {expand : Node → Context → List Char → Parsed} {s : Settings}

mutual

/-- Induction on the tree; what an instant or a localized pattern expands to leaves an end of the
text by assumption. -/
theorem parseWith_stopsIn (hexpand : ∀ node c text, StopsIn text (expand node c text).2) :
    ∀ (node : Node) (c : Context) (text : List Char),
      StopsIn text (parseWith expand s node c text).2
  | .leaf l, c, text => by
      rw [parseWith]
      exact c.storeResult_stopsIn (l.read_readsIn s c.mode text)
  | .mode change, c, text => by
      rw [parseWith]
      exact List.suffix_rfl
  | .instant, c, text => by
      have hparts := hexpand Iso.instantParts .initial text
      rw [parseWith]
      split
      · rename_i own rest h
        rw [h] at hparts
        exact c.storeResult_stopsIn (instantReading_readsIn own.current hparts)
      · rename_i rest h
        rw [h] at hparts
        exact hparts
  | .localized l, c, text => by
      rw [parseWith]
      split
      · exact stopsIn_error text
      · exact hexpand _ c text
  | .pad inner width fill, c, text => by
      rw [parseWith]
      split
      · have hbody : c.mode.dropFill fill (text.take width) <:+ text.take width :=
          List.dropWhile_suffix _
        have hinner := parseWith_stopsIn hexpand inner c (c.mode.dropFill fill (text.take width))
        have hwindow := c.mode.leaveWindow_stopsIn (text.drop width) hbody hinner
        rwa [List.take_append_drop] at hwindow
      · exact stopsIn_error text
  | .group nodes false, c, text => by
      rw [parseWith]
      exact parseAllWith_stopsIn hexpand nodes c text
  | .group nodes true, c, text => by
      have hnodes := parseAllWith_stopsIn hexpand nodes c.startOptional text
      rw [parseWith]
      split
      · rename_i h
        rwa [h] at hnodes
      · exact List.suffix_rfl

theorem parseAllWith_stopsIn (hexpand : ∀ node c text, StopsIn text (expand node c text).2) :
    ∀ (nodes : List Node) (c : Context) (text : List Char),
      StopsIn text (parseAllWith expand s nodes c text).2
  | [], c, text => by
      rw [parseAllWith]
      exact List.suffix_rfl
  | node :: nodes, c, text => by
      have hnode := parseWith_stopsIn hexpand node c text
      rw [parseAllWith]
      split
      · rename_i after rest h
        rw [h] at hnode
        exact (parseAllWith_stopsIn hexpand nodes after rest).trans hnode
      · exact hnode

end

theorem parseTo_stopsIn (s : Settings) (depth : Nat) (node : Node) (c : Context)
    (text : List Char) : StopsIn text (parseTo s depth node c text).2 := by
  induction depth generalizing node c text with
  | zero => exact parseWith_stopsIn (fun _ _ => stopsIn_error) node c text
  | succ depth ih => exact parseWith_stopsIn ih node c text

end Node

end DateTimeText
