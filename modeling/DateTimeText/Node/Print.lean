import DateTimeText.Builder.Pattern
import DateTimeText.Node.InstantText

/-!
# Writing into a buffer

A node writes at the end of a buffer that already holds other text, and may change what it has
written itself. It tells whether the value had all that it writes; if not, it takes back what it has
written. Only an error leaves its output in the buffer.
-/

namespace DateTimeText

/-- A buffer after a node, and whether the value had all that the node writes. -/
abbrev Printed : Type := List Char × Except FormatError Bool

/-- The parts of an offset behind its sign and hours. -/
def OffsetForm.printRest (p : OffsetPattern) (total : Int) (buffer : List Char) :
    List Char × Nat :=
  let colon := if p.hasColons then [':'] else []
  let minutes := minutesOf total
  let seconds := secondsOf total
  if writes p.minutes minutes then
    let buffer := buffer ++ colon ++ twoDigits minutes
    if writes p.seconds seconds then (buffer ++ colon ++ twoDigits seconds, minutes + seconds)
    else (buffer, minutes)
  else (buffer, 0)

/-- Writes an offset, and takes it back for the text of a zero offset if all its parts are zero. -/
def OffsetForm.print (o : OffsetForm) (total : Option Int) (buffer : List Char) : Printed :=
  match total with
  | none => (buffer, .ok false)
  | some total =>
    if total < -2147483648 ∨ 2147483647 < total then (buffer, .error (.print .offsetOutOfRange))
    else if total = 0 then (buffer ++ o.zeroText, .ok true)
    else
      let started := buffer ++ [if total < 0 then '-' else '+'] ++ twoDigits (hoursOf total)
      let (written, rest) := printRest o.pattern total started
      if hoursOf total + rest = 0 then (written.take buffer.length ++ o.zeroText, .ok true)
      else (written, .ok true)

/-- Writes an instant: its date-time first, then its era into the year. -/
def Instant.print (v : Components) (buffer : List Char) : Printed :=
  match v.field .instantSeconds, v.field .nanoOfSecond with
  | some seconds, some nano =>
    match Field.nanoOfSecond.range.check .nanoOfSecond nano with
    | .error e => (buffer, .error (.print e))
    | .ok nano =>
      match inEra seconds nano.toNat with
      | .error e => (buffer, .error (.print e))
      | .ok i => (i.splice.apply buffer.length (buffer ++ utcText i.dateTime), .ok true)
  | _, _ => (buffer, .ok false)

def Leaf.print (s : Settings) (v : Components) (leaf : Leaf) (buffer : List Char) : Printed :=
  match leaf with
  | .offset o => o.print (v.field .offsetSeconds) buffer
  | leaf =>
    match leaf.render s v with
    | .ok (some cs) => (buffer ++ cs, .ok true)
    | .ok none => (buffer, .ok false)
    | .error e => (buffer, .error e)

/-- The chronology that a localized pattern is looked up for when it is written. -/
def Settings.printChronology (s : Settings) (v : Components) : Chronology :=
  (s.chronology.or v.chronology).getD .iso

namespace Node

/-- Puts the pad between what was in the buffer and what was written behind it. -/
def padBuffer (width : Nat) (fill : Char) (length : Nat) (buffer : List Char) : Printed :=
  let written := buffer.drop length
  if width < written.length then
    (buffer, .error (.print (.padOverflow written.length width)))
  else
    (buffer.take length ++ List.replicate (width - written.length) fill ++ written, .ok true)

mutual

/-- Writes a node. `expand` writes the nodes of a localized pattern. -/
def printWith (expand : Node → List Char → Printed) (s : Settings) (v : Components) :
    Node → List Char → Printed
  | leaf l, buffer => l.print s v buffer
  | mode _, buffer => (buffer, .ok true)
  | instant, buffer => Instant.print v buffer
  | localized l, buffer =>
    match l.nodes s (s.printChronology v) with
    | .error e => (buffer, .error e)
    | .ok nodes => expand (group nodes false) buffer
  | pad inner width fill, buffer =>
    match printWith expand s v inner buffer with
    | (written, .ok true) => padBuffer width fill buffer.length written
    | other => other
  | group nodes optional, buffer =>
    match printAllWith expand s v nodes buffer with
    | (written, .ok false) => (written.take buffer.length, .ok optional)
    | other => other

/-- Writes nodes one after the other, up to the first for which the value lacks something. -/
def printAllWith (expand : Node → List Char → Printed) (s : Settings) (v : Components) :
    List Node → List Char → Printed
  | [], buffer => (buffer, .ok true)
  | node :: nodes, buffer =>
    match printWith expand s v node buffer with
    | (written, .ok true) => printAllWith expand s v nodes written
    | other => other

end

/-- Writes a node with localized patterns inside each other up to a depth. -/
def printTo (s : Settings) (v : Components) : (depth : Nat) → Node → List Char → Printed
  | 0 => printWith (fun _ buffer => (buffer, .ok false)) s v
  | depth + 1 => printWith (printTo s v depth) s v

/-- Writes a node. Patterns hold no localized patterns, so a depth of one is enough. -/
def print (s : Settings) (v : Components) (node : Node) (buffer : List Char) : Printed :=
  printTo s v 1 node buffer

end Node

end DateTimeText
