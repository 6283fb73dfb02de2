import DateTimeText.Proofs.Node.OffsetBytes

/-!
# Reading at places of a text

Nodes are also read in a text as a whole, at places that are counted in its bytes: an offset is read
in the bytes, a padded node in the text up to the end of its window, and an optional section that is
not read comes back to the place where it starts. This does what reading the text behind the place
does, and comes to the places of what is left.
-/

namespace DateTimeText

/-- The text in front of byte `n`. -/
def takeBytes : Nat → List Char → List Char
  | 0, _ => []
  | _ + 1, [] => []
  | n + 1, c :: cs => c :: takeBytes (n + 1 - c.utf8Size) cs

/-- The place that is some characters behind a place, if there are as many. -/
def advance? (text : List Char) (n count : Nat) : Option Nat :=
  (dropBytes? n text).bind fun start =>
    if count ≤ start.length then some (n + byteLength (start.take count)) else none

namespace Mode

/-- Where the window of a padded node ends that starts at a place. -/
def windowEnd? (mode : Mode) (text : List Char) (n width : Nat) : Option Nat :=
  if byteLength text ≤ n then none
  else (advance? text n width).or (if mode.strict then none else some (byteLength text))

def skipFill (mode : Mode) (fill : Char) (stop : Nat) : (n : Nat) → List Char → Nat
  | n, [] => n
  | n, c :: cs =>
    if n < stop && mode.sameChar c fill then skipFill mode fill stop (n + c.utf8Size) cs else n

/-- The result of a padded node whose window ends at `stop` and has its pad up to `first`. -/
def leaveWindowAt (mode : Mode) (first stop : Nat) : Except Nat Nat → Except Nat Nat
  | .ok m => if mode.strict && m != stop then .error first else .ok m
  | .error m => .error m

end Mode

/-- A context after a node, and the place behind it or where it was not read. -/
abbrev Scanned : Type := Context × Except Nat Nat

/-- The places where the texts start that a result leaves. -/
def locate (text : List Char) : Except (List Char) (List Char) → Except Nat Nat
  | .ok rest => .ok (place text rest)
  | .error rest => .error (place text rest)

/-- Stores values that were read from place `n` to place `m`. -/
def Context.storeAt (c : Context) (fields : List (Field × Int)) (n m : Nat) : Scanned :=
  match c.storeFields fields with
  | (stored, true) => (stored, .ok m)
  | (stored, false) => (stored, .error n)

def OffsetForm.scan? (o : OffsetForm) (mode : Mode) (text : List Char) (n : Nat) :
    Option (Int × Nat) :=
  ((dropBytes? n text).bind (o.readZero? mode)).map (fun rest => (0, place text rest)) |>.or <|
    (signedAt? (utf8 text) o.pattern n).or <|
      if o.zeroText.isEmpty then some (0, n) else none

def Leaf.scan (s : Settings) (c : Context) (text : List Char) (n : Nat) : Leaf → Scanned
  | offset o =>
    match o.scan? c.mode text n with
    | some (total, m) => c.storeAt [(.offsetSeconds, total)] n m
    | none => (c, .error n)
  | l =>
    match dropBytes? n text with
    | some start => (c.storeResult (l.read s c.mode start)).map id (locate text)
    | none => (c, .error n)

namespace Node

mutual

def scanWith (expand : Node → Context → List Char → Nat → Scanned) (s : Settings) :
    Node → Context → List Char → Nat → Scanned
  | leaf l, c, text, n => l.scan s c text n
  | mode change, c, _, n => ({ c with mode := change.apply c.mode }, .ok n)
  | instant, c, text, n =>
    match expand Iso.instantParts .initial text n with
    | (own, .ok m) =>
      match Instant.ofComponents? own.current with
      | some (seconds, nano) => c.storeAt [(.instantSeconds, seconds), (.nanoOfSecond, nano)] n m
      | none => (c, .error n)
    | (_, .error m) => (c, .error m)
  | localized l, c, text, n =>
    match l.nodes s (s.parseChronology c.current) with
    | .error _ => (c, .error n)
    | .ok nodes => expand (group nodes false) c text n
  | pad inner width fill, c, text, n =>
    match c.mode.windowEnd? text n width with
    | none => (c, .error n)
    | some stop =>
      let first := c.mode.skipFill fill stop n ((dropBytes? n text).getD [])
      let (after, result) := scanWith expand s inner c (takeBytes stop text) first
      (after, c.mode.leaveWindowAt first stop result)
  | group nodes false, c, text, n => scanAllWith expand s nodes c text n
  | group nodes true, c, text, n =>
    match scanAllWith expand s nodes c.startOptional text n with
    | (after, .ok m) => (after.endOptional true, .ok m)
    | (after, .error _) => (after.endOptional false, .ok n)

def scanAllWith (expand : Node → Context → List Char → Nat → Scanned) (s : Settings) :
    List Node → Context → List Char → Nat → Scanned
  | [], c, _, n => (c, .ok n)
  | node :: nodes, c, text, n =>
    match scanWith expand s node c text n with
    | (after, .ok m) => scanAllWith expand s nodes after text m
    | other => other

end

/-- Reads a node at a place, with instants and localized patterns inside each other up to a depth.
-/
def scanTo (s : Settings) : (depth : Nat) → Node → Context → List Char → Nat → Scanned
  | 0 => scanWith (fun _ c _ n => (c, .error n)) s
  | depth + 1 => scanWith (scanTo s depth) s

end Node

/-! ### Windows -/

theorem takeBytes_cons (c : Char) (cs : List Char) (n : Nat) :
    takeBytes (c.utf8Size + n) (c :: cs) = c :: takeBytes n cs := by
  obtain ⟨m, hm⟩ := Nat.exists_eq_add_one.2 c.utf8Size_pos
  have hrest : m + n + 1 - c.utf8Size = n := by omega
  rw [hm, Nat.add_right_comm, takeBytes, hrest]

theorem takeBytes_append (front rest : List Char) :
    takeBytes (byteLength front) (front ++ rest) = front := by
  induction front with
  | nil => cases rest <;> rfl
  | cons c front ih => rw [byteLength_cons, List.cons_append, takeBytes_cons, ih]

theorem takeBytes_window (front start : List Char) (width : Nat) :
    takeBytes (byteLength (front ++ start.take width)) (front ++ start) =
      front ++ start.take width := by
  have h := takeBytes_append (front ++ start.take width) (start.drop width)
  rwa [List.append_assoc, List.take_append_drop] at h

/-- What is left of a window starts where it starts with the text beyond the window behind it. -/
theorem place_append_append (text rest beyond : List Char) :
    place (text ++ beyond) (rest ++ beyond) = place text rest := by
  rw [place, place, byteLength_append, byteLength_append, Nat.add_sub_add_right]

theorem place_eq_byteLength_iff {text rest : List Char} (h : rest <:+ text) :
    place text rest = byteLength text ↔ rest = [] := by
  have hle := byteLength_le_of_suffix h
  cases rest with
  | nil => simp [place]
  | cons c rest =>
      have hpos := c.utf8Size_pos
      rw [byteLength_cons] at hle
      rw [place, byteLength_cons]
      constructor
      · omega
      · intro hrest
        cases hrest

namespace Mode

variable (mode : Mode)

theorem windowEnd?_append (front start : List Char) (width : Nat) :
    mode.windowEnd? (front ++ start) (byteLength front) width =
      if mode.admitsWindow width start then some (byteLength (front ++ start.take width))
      else none := by
  have hempty : byteLength (front ++ start) ≤ byteLength front ↔ start.isEmpty = true := by
    cases start with
    | nil => simp
    | cons c start =>
        have hpos := c.utf8Size_pos
        rw [byteLength_append, byteLength_cons]
        simp only [List.isEmpty_cons, Bool.false_eq_true, iff_false]
        omega
  rw [windowEnd?, admitsWindow, advance?, dropBytes?_append, Option.bind_some]
  simp only [hempty]
  by_cases hstart : start.isEmpty = true
  · simp [hstart]
  by_cases hwidth : width ≤ start.length
  · simp [hstart, hwidth]
  · have htake : start.take width = start := List.take_of_length_le (Nat.le_of_not_le hwidth)
    cases hstrict : mode.strict <;> simp [hstart, hwidth, htake]

theorem skipFill_append (fill : Char) (front window beyond : List Char) :
    mode.skipFill fill (byteLength (front ++ window)) (byteLength front) (window ++ beyond) =
      place (front ++ window) (mode.dropFill fill window) := by
  induction window generalizing front with
  | nil =>
      have hstop : mode.skipFill fill (byteLength front) (byteLength front) beyond =
          byteLength front := by
        cases beyond with
        | nil => rfl
        | cons c beyond => simp [skipFill]
      rw [List.append_nil, List.nil_append, hstop]
      rfl
  | cons c window ih =>
      have hlt : byteLength front < byteLength (front ++ c :: window) := by
        have hpos := c.utf8Size_pos
        rw [byteLength_append, byteLength_cons]
        omega
      rw [List.cons_append, skipFill, dropFill, List.dropWhile_cons]
      by_cases hc : mode.sameChar c fill = true
      · have hnext : byteLength front + c.utf8Size = byteLength (front ++ [c]) := by simp
        have hfront : front ++ c :: window = (front ++ [c]) ++ window := by simp
        rw [if_pos (Bool.and_eq_true_iff.2 ⟨decide_eq_true hlt, hc⟩), if_pos hc, hnext, hfront]
        exact ih (front ++ [c])
      · rw [if_neg (by simp [hc]), if_neg hc, place_append]

theorem skipFill_window (fill : Char) (front start : List Char) (width : Nat) :
    mode.skipFill fill (byteLength (front ++ start.take width)) (byteLength front) start =
      place (front ++ start.take width) (mode.dropFill fill (start.take width)) := by
  have h := mode.skipFill_append fill front (start.take width) (start.drop width)
  rwa [List.take_append_drop] at h

/-- The window of a text is left as it is left in the text as a whole. -/
theorem leaveWindowAt_locate {body window : List Char} (beyond : List Char)
    {r : Except (List Char) (List Char)} (hbody : body <:+ window) (hr : StopsIn body r) :
    mode.leaveWindowAt (place window body) (byteLength window) (locate window r) =
      locate (window ++ beyond) (mode.leaveWindow body beyond r) := by
  cases r with
  | ok rest =>
      have hend := place_eq_byteLength_iff (List.IsSuffix.trans hr hbody)
      have htest : (place window rest != byteLength window) = !rest.isEmpty := by
        rw [Bool.eq_iff_iff, bne_iff_ne, ne_eq, hend]
        simp
      rw [locate, leaveWindowAt, leaveWindow, htest]
      split
      · rw [locate, place_append_append]
      · rw [locate, place_append_append]
  | error rest => rw [locate, leaveWindowAt, leaveWindow, locate, place_append_append]

end Mode

/-! ### Places of what is left -/

theorem Context.storeAt_locate (c : Context) (fields : List (Field × Int))
    (text start rest : List Char) :
    c.storeAt fields (place text start) (place text rest) =
      (c.store ⟨fields, none, none, start, rest⟩).map id (locate text) := by
  rw [storeAt, store]
  rcases c.storeFields fields with ⟨stored, _ | _⟩
  · rfl
  · rfl

theorem OffsetForm.scan?_place (o : OffsetForm) (mode : Mode) {text start : List Char}
    (h : start <:+ text) :
    o.scan? mode text (place text start) =
      (o.read? mode start).map fun (total, rest) => (total, place text rest) := by
  rw [scan?, read?, dropBytes?_place h, signedAt?_place _ h, Option.bind_some, Option.map_or,
    Option.map_or, Option.map_map]
  congr 2
  split
  · rfl
  · rfl

theorem Leaf.scan_place (l : Leaf) (s : Settings) (c : Context) {text start : List Char}
    (h : start <:+ text) :
    l.scan s c text (place text start) =
      (c.storeResult (l.read s c.mode start)).map id (locate text) := by
  cases l with
  | offset o =>
      rw [scan, o.scan?_place c.mode h, read, OffsetForm.read]
      rcases o.read? c.mode start with _ | ⟨total, rest⟩
      · rfl
      · exact c.storeAt_locate _ text start rest
  | _ => simp only [scan, dropBytes?_place h]

namespace Node

variable {expandAt : Node → Context → List Char → Nat → Scanned}
  {expand : Node → Context → List Char → Parsed} {s : Settings}

mutual

theorem scanWith_place
    (hscan : ∀ node c {text start}, start <:+ text →
      expandAt node c text (place text start) = (expand node c start).map id (locate text))
    (hstops : ∀ node c text, StopsIn text (expand node c text).2) :
    ∀ (node : Node) (c : Context) {text start : List Char}, start <:+ text →
      scanWith expandAt s node c text (place text start) =
        (parseWith expand s node c start).map id (locate text)
  | .leaf l, c, text, start, h => by
      rw [scanWith, parseWith, l.scan_place s c h]
  | .mode change, c, text, start, h => by
      rw [scanWith, parseWith]
      rfl
  | .instant, c, text, start, h => by
      rw [scanWith, parseWith, hscan _ _ h]
      rcases expand Iso.instantParts .initial start with ⟨own, rest | rest⟩
      · rfl
      · dsimp only [Prod.map, id, locate]
        rw [instantReading]
        rcases Instant.ofComponents? own.current with _ | ⟨seconds, nano⟩
        · rfl
        · exact c.storeAt_locate _ text start rest
  | .localized l, c, text, start, h => by
      rw [scanWith, parseWith]
      rcases l.nodes s (s.parseChronology c.current) with e | nodes
      · rfl
      · exact hscan _ c h
  | .pad inner width fill, c, text, start, h => by
      -- The inner node is read in a text of its own, which ends with the window.
      obtain ⟨front, rfl⟩ := h
      rw [scanWith, parseWith, place_append, c.mode.windowEnd?_append]
      by_cases hadmits : c.mode.admitsWindow width start = true
      · have hbody : c.mode.dropFill fill (start.take width) <:+ start.take width :=
          List.dropWhile_suffix _
        have hwindow := hbody.trans (List.suffix_append front _)
        have hsplit : front ++ start = (front ++ start.take width) ++ start.drop width := by
          rw [List.append_assoc, List.take_append_drop]
        have hinner := scanWith_place hscan hstops inner c hwindow
        have hleaves := parseWith_stopsIn hstops (s := s) inner c
          (c.mode.dropFill fill (start.take width))
        have hleave := c.mode.leaveWindowAt_locate (start.drop width) hwindow hleaves
        rw [← hsplit] at hleave
        rw [if_pos hadmits, if_pos hadmits]
        simp only [dropBytes?_append, Option.getD_some, Mode.skipFill_window, takeBytes_window,
          hinner]
        exact Prod.ext rfl hleave
      · rw [if_neg hadmits, if_neg hadmits, Prod.map, locate, place_append]
        rfl
  | .group nodes false, c, text, start, h => by
      rw [scanWith, parseWith]
      exact scanAllWith_place hscan hstops nodes c h
  | .group nodes true, c, text, start, h => by
      rw [scanWith, parseWith, scanAllWith_place hscan hstops nodes c.startOptional h]
      rcases parseAllWith expand s nodes c.startOptional start with ⟨after, rest | rest⟩
      · rfl
      · rfl

theorem scanAllWith_place
    (hscan : ∀ node c {text start}, start <:+ text →
      expandAt node c text (place text start) = (expand node c start).map id (locate text))
    (hstops : ∀ node c text, StopsIn text (expand node c text).2) :
    ∀ (nodes : List Node) (c : Context) {text start : List Char}, start <:+ text →
      scanAllWith expandAt s nodes c text (place text start) =
        (parseAllWith expand s nodes c start).map id (locate text)
  | [], c, text, start, h => by
      rw [scanAllWith, parseAllWith]
      rfl
  | node :: nodes, c, text, start, h => by
      -- The next node is read at an end of the text only if this one leaves one.
      have hleaves := parseWith_stopsIn hstops (s := s) node c start
      rw [scanAllWith, parseAllWith, scanWith_place hscan hstops node c h]
      rcases hnode : parseWith expand s node c start with ⟨after, rest | rest⟩
      · rfl
      · rw [hnode] at hleaves
        exact scanAllWith_place hscan hstops nodes after (List.IsSuffix.trans hleaves h)

end

theorem scanTo_place (s : Settings) (depth : Nat) (node : Node) (c : Context)
    {text start : List Char} (h : start <:+ text) :
    scanTo s depth node c text (place text start) =
      (parseTo s depth node c start).map id (locate text) := by
  induction depth generalizing node c text start with
  | zero => exact scanWith_place (fun _ _ _ _ _ => rfl) (fun _ _ => stopsIn_error) node c h
  | succ depth ih => exact scanWith_place ih (parseTo_stopsIn s depth) node c h

end Node

end DateTimeText
