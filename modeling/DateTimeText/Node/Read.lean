import DateTimeText.Node.Parse

/-!
# Reading with copies

Nodes are read in order with the components read so far passed along. An optional section is tried
on them, and if it is not read its own are forgotten. The mode is passed along in any case.
-/

namespace DateTimeText

namespace Components

/-- The components with more values, if none contradicts an earlier one. -/
def addFields? (v : Components) : List (Field × Int) → Option Components
  | [] => some v
  | (f, value) :: fields =>
    match v.field f with
    | none => (v.set f value).addFields? fields
    | some old => if old = value then v.addFields? fields else none

/-- The components with what was read, if it does not contradict them. -/
def add? (v : Components) (r : Reading) : Option Components :=
  (v.addFields? r.fields).map fun w =>
    { w with zone := r.zone.or w.zone, chronology := r.chronology.or w.chronology }

/-- The components with what was read and the text that is left, or where it was not read. -/
def addResult (v : Components) (r : Except (List Char) Reading) :
    Except (List Char) (Components × List Char) :=
  match r with
  | .error e => .error e
  | .ok reading =>
    match v.add? reading with
    | some w => .ok (w, reading.rest)
    | none => .error reading.conflictAt

end Components

/-- A mode after a node, and the components and the text left behind it or where it was not read. -/
abbrev ReadResult : Type := Mode × Except (List Char) (Components × List Char)

/-- The result of a padded node, as for `Mode.leaveWindow`. -/
def Mode.leaveWindowWith (mode : Mode) (body beyond : List Char) :
    Except (List Char) (Components × List Char) → Except (List Char) (Components × List Char)
  | .ok (v, rest) =>
    if mode.strict && !rest.isEmpty then .error (body ++ beyond) else .ok (v, rest ++ beyond)
  | .error rest => .error (rest ++ beyond)

namespace Node

mutual

/-- Reads a node from the start of a text, with the components that were read before it. -/
def readWith (expand : Node → Mode → Components → List Char → ReadResult) (s : Settings) :
    Node → Mode → Components → List Char → ReadResult
  | leaf l, m, v, text => (m, v.addResult (l.read s m text))
  | mode change, m, v, text => (change.apply m, .ok (v, text))
  | instant, m, v, text =>
    match expand Iso.instantParts .initial .empty text with
    | (_, .ok (own, rest)) => (m, v.addResult (instantReading own text rest))
    | (_, .error rest) => (m, .error rest)
  | localized l, m, v, text =>
    match l.nodes s (s.parseChronology v) with
    | .error _ => (m, .error text)
    | .ok nodes => expand (group nodes false) m v text
  | pad inner width fill, m, v, text =>
    if m.admitsWindow width text then
      let body := m.dropFill fill (text.take width)
      let (after, result) := readWith expand s inner m v body
      (after, m.leaveWindowWith body (text.drop width) result)
    else (m, .error text)
  | group nodes false, m, v, text => readAllWith expand s nodes m v text
  | group nodes true, m, v, text =>
    match readAllWith expand s nodes m v text with
    | (after, .error _) => (after, .ok (v, text))
    | done => done

def readAllWith (expand : Node → Mode → Components → List Char → ReadResult) (s : Settings) :
    List Node → Mode → Components → List Char → ReadResult
  | [], m, v, text => (m, .ok (v, text))
  | node :: nodes, m, v, text =>
    match readWith expand s node m v text with
    | (after, .ok (w, rest)) => readAllWith expand s nodes after w rest
    | other => other

end

/-- Reads a node with instants and localized patterns inside each other up to a depth. -/
def readTo (s : Settings) : (depth : Nat) → Node → Mode → Components → List Char → ReadResult
  | 0 => readWith (fun _ m _ text => (m, .error text)) s
  | depth + 1 => readWith (readTo s depth) s

def read (s : Settings) (node : Node) (m : Mode) (v : Components) (text : List Char) :
    ReadResult :=
  readTo s 1 node m v text

end Node

end DateTimeText
