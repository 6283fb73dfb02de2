import DateTimeText.Proofs.Formatter.Positions
import DateTimeText.Proofs.Node.Scan

/-!
# Reading behind more text

What stands in front of the place where reading starts is not read: with more text in front, the same
components are read, and the places that reading comes to lie as many bytes behind.
-/

namespace DateTimeText

/-- A place in a text with `n` more bytes in front. -/
def shiftPlace (n : Nat) : Except Nat Nat → Except Nat Nat
  | .ok m => .ok (n + m)
  | .error m => .error (n + m)

/-- A position in a text with `n` more bytes in front. -/
def ParsePosition.shift (n : Nat) (position : ParsePosition) : ParsePosition :=
  ⟨n + position.index, position.errorIndex.map (n + ·)⟩

theorem dropBytes?_cons (c : Char) (cs : List Char) (n : Nat) :
    dropBytes? (c.utf8Size + n) (c :: cs) = dropBytes? n cs := by
  obtain ⟨m, hm⟩ := Nat.exists_eq_add_one.2 c.utf8Size_pos
  have hrest : m + n + 1 - c.utf8Size = n := by omega
  rw [hm, Nat.add_right_comm, dropBytes?, if_pos (by omega), hrest]

theorem dropBytes?_byteLength_add (front text : List Char) (n : Nat) :
    dropBytes? (byteLength front + n) (front ++ text) = dropBytes? n text := by
  induction front with
  | nil => rw [byteLength_nil, Nat.zero_add, List.nil_append]
  | cons c front ih => rw [byteLength_cons, Nat.add_assoc, List.cons_append, dropBytes?_cons, ih]

theorem place_append_left (front : List Char) {text rest : List Char} (h : rest <:+ text) :
    place (front ++ text) rest = byteLength front + place text rest := by
  rw [place, place, byteLength_append, Nat.add_sub_assoc (byteLength_le_of_suffix h)]

theorem locate_append (front : List Char) {text : List Char} {r : Except (List Char) (List Char)}
    (h : StopsIn text r) :
    locate (front ++ text) r = shiftPlace (byteLength front) (locate text r) := by
  cases r with
  | ok rest => exact congrArg Except.ok (place_append_left front h)
  | error rest => exact congrArg Except.error (place_append_left front h)

theorem Node.scanTo_append (s : Settings) (depth : Nat) (node : Node) (c : Context)
    (front : List Char) {text start : List Char} (h : start <:+ text) :
    node.scanTo s depth c (front ++ text) (byteLength front + place text start) =
      (node.scanTo s depth c text (place text start)).map id (shiftPlace (byteLength front)) := by
  have hstops := (parseTo_stopsIn s depth node c start).trans h
  rw [← place_append_left front h, scanTo_place s depth node c (h.trans (List.suffix_append ..)),
    scanTo_place s depth node c h, Prod.map_map, Prod.map, Prod.map, Function.comp_apply,
    locate_append front hstops]
  rfl

namespace Formatter

variable (f : Formatter)

theorem parseAt_of_scan {text start : List Char} {position : ParsePosition}
    (h : dropBytes? position.index text = some start) :
    f.parseAt text position =
      match f.root.scanTo f.settings 1 .initial text position.index with
      | (c, .ok stop) => (some c.current, { position with index := stop })
      | (_, .error stop) => (none, { position with errorIndex := some stop }) := by
  obtain ⟨hsuffix, hindex⟩ := dropBytes?_eq_some_iff.1 h
  rw [f.parseAt_of_boundary h, parseStart, Node.parse, hindex,
    Node.scanTo_place f.settings 1 f.root .initial hsuffix]
  rcases f.root.parseTo f.settings 1 .initial start with ⟨c, rest | rest⟩
  · rfl
  · rfl

theorem parseAt_append (front text : List Char) (position : ParsePosition) :
    f.parseAt (front ++ text) (position.shift (byteLength front)) =
      (f.parseAt text position).map id (·.shift (byteLength front)) := by
  have hindex : dropBytes? (position.shift (byteLength front)).index (front ++ text) =
      dropBytes? position.index text := dropBytes?_byteLength_add front text position.index
  rcases hstart : dropBytes? position.index text with _ | start
  · rw [f.parseAt_of_not_boundary hstart, f.parseAt_of_not_boundary (hindex.trans hstart)]
    rfl
  · obtain ⟨hsuffix, hplace⟩ := dropBytes?_eq_some_iff.1 hstart
    have hscan := f.root.scanTo_append f.settings 1 .initial front hsuffix
    rw [← hplace] at hscan
    rw [f.parseAt_of_scan hstart, f.parseAt_of_scan (hindex.trans hstart), ParsePosition.shift,
      hscan]
    rcases f.root.scanTo f.settings 1 .initial text position.index with ⟨c, stop | stop⟩
    · rfl
    · rfl

/-- Reading depends on the text from its place on, and moves with it: each node at each depth, read
at a place of a whole text, comes to places that are as much further behind as the text in front is
longer, and so does a formatter, which reads its nodes so, and reads the same components. -/
theorem parseAt_translation_invariant :
    (∀ (s : Settings) (depth : Nat) (node : Node) (c : Context) (front before after : List Char),
      node.scanTo s depth c (front ++ (before ++ after)) (byteLength front + byteLength before) =
        (node.scanTo s depth c (before ++ after) (byteLength before)).map id
          (shiftPlace (byteLength front))) ∧
    (∀ (f : Formatter) (before after : List Char) (e : Option Nat),
      f.parseAt (before ++ after) ⟨byteLength before, e⟩ =
        match f.root.scanTo f.settings 1 .initial (before ++ after) (byteLength before) with
        | (c, .ok stop) => (some c.current, ⟨stop, e⟩)
        | (_, .error stop) => (none, ⟨byteLength before, some stop⟩)) ∧
    ∀ (f : Formatter) (front text : List Char) (position : ParsePosition),
      f.parseAt (front ++ text) (position.shift (byteLength front)) =
        (f.parseAt text position).map id (·.shift (byteLength front)) := by
  refine ⟨?nodes, ?formatter, parseAt_append⟩
  case nodes =>
    intro s depth node c front before after
    have hscan := node.scanTo_append s depth c front (List.suffix_append before after)
    rwa [place_append] at hscan
  case formatter =>
    intro f before after e
    have hstart : dropBytes? (ParsePosition.mk (byteLength before) e).index (before ++ after) =
        some after := dropBytes?_append before after
    exact f.parseAt_of_scan hstart

end Formatter

end DateTimeText
