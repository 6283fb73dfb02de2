import DateTimeText.Builder.Pattern
import DateTimeText.Node.InstantText
import DateTimeText.Node.Iso

/-!
# Reading with snapshots

What was read so far is kept on a stack: each optional section starts with a copy of the components,
which replaces them if the section is read and is dropped if it is not. The mode is not on the
stack, so a section that is not read leaves its changes of the mode behind. A value that contradicts
an earlier one is stored before the contradiction is reported.
-/

namespace DateTimeText

/-- The mode, the components that were read so far, and those of the sections around. -/
structure Context where
  mode : Mode
  current : Components
  saved : List Components

namespace Context

def initial : Context := ⟨.initial, .empty, []⟩

/-- The context with a copy of the components on top. -/
def startOptional (c : Context) : Context :=
  { c with saved := c.current :: c.saved }

/-- The context after an optional section: its components stay if it was read, else those from
before it come back. -/
def endOptional (c : Context) (success : Bool) : Context :=
  match c.saved with
  | [] => c
  | before :: saved =>
    if success then { c with saved := saved } else { c with current := before, saved := saved }

/-- Stores values in turn, up to the first that contradicts an earlier one, and tells whether there
was none. -/
def storeFields (c : Context) : List (Field × Int) → Context × Bool
  | [] => (c, true)
  | (f, value) :: fields =>
    let stored := { c with current := c.current.set f value }
    if (c.current.field f).all (· == value) then stored.storeFields fields else (stored, false)

def storeZone (c : Context) (zone : Option ZoneId) : Context :=
  match zone with
  | none => c
  | some zone => { c with current := c.current.withZone zone }

def storeChronology (c : Context) (chronology : Option Chronology) : Context :=
  match chronology with
  | none => c
  | some chronology => { c with current := c.current.withChronology chronology }

def store (c : Context) (r : Reading) : Context × Except (List Char) (List Char) :=
  match c.storeFields r.fields with
  | (stored, false) => (stored, .error r.conflictAt)
  | (stored, true) => ((stored.storeZone r.zone).storeChronology r.chronology, .ok r.rest)

/-- Stores what was read, or passes on where it was not. -/
def storeResult (c : Context) (r : Except (List Char) Reading) :
    Context × Except (List Char) (List Char) :=
  match r with
  | .ok reading => c.store reading
  | .error e => (c, .error e)

end Context

/-- The chronology that a localized pattern is looked up for when it is read. -/
def Settings.parseChronology (s : Settings) (v : Components) : Chronology :=
  (v.chronology.or s.chronology).getD .iso

/-- A context after a node, and the text that is left behind it or where it was not read. -/
abbrev Parsed : Type := Context × Except (List Char) (List Char)

/-- Whether a padded node may be read: there is a text, and in strict mode one of the full width. -/
def Mode.admitsWindow (mode : Mode) (width : Nat) (text : List Char) : Bool :=
  !text.isEmpty && (!mode.strict || decide (width ≤ text.length))

/-- What is left of a window behind its pad. -/
def Mode.dropFill (mode : Mode) (fill : Char) (window : List Char) : List Char :=
  window.dropWhile (mode.sameChar · fill)

/-- The result of a padded node: the text behind the window follows what is left of it, and in
strict mode nothing may be left of it. -/
def Mode.leaveWindow (mode : Mode) (body beyond : List Char) :
    Except (List Char) (List Char) → Except (List Char) (List Char)
  | .ok rest =>
    if mode.strict && !rest.isEmpty then .error (body ++ beyond) else .ok (rest ++ beyond)
  | .error rest => .error (rest ++ beyond)

namespace Node

/-- The instant of a date and time of day that were read apart. -/
def instantReading (v : Components) (text rest : List Char) : Except (List Char) Reading :=
  match Instant.ofComponents? v with
  | some (seconds, nano) =>
    .ok ⟨[(.instantSeconds, seconds), (.nanoOfSecond, nano)], none, none, text, rest⟩
  | none => .error text

mutual

/-- Reads a node from the start of a text. `expand` reads the parts of an instant, in a context of
their own, and the nodes of a localized pattern. -/
def parseWith (expand : Node → Context → List Char → Parsed) (s : Settings) :
    Node → Context → List Char → Parsed
  | leaf l, c, text => c.storeResult (l.read s c.mode text)
  | mode change, c, text => ({ c with mode := change.apply c.mode }, .ok text)
  | instant, c, text =>
    match expand Iso.instantParts .initial text with
    | (own, .ok rest) => c.storeResult (instantReading own.current text rest)
    | (_, .error rest) => (c, .error rest)
  | localized l, c, text =>
    match l.nodes s (s.parseChronology c.current) with
    | .error _ => (c, .error text)
    | .ok nodes => expand (group nodes false) c text
  | pad inner width fill, c, text =>
    if c.mode.admitsWindow width text then
      let body := c.mode.dropFill fill (text.take width)
      let (after, result) := parseWith expand s inner c body
      (after, c.mode.leaveWindow body (text.drop width) result)
    else (c, .error text)
  | group nodes false, c, text => parseAllWith expand s nodes c text
  | group nodes true, c, text =>
    match parseAllWith expand s nodes c.startOptional text with
    | (after, .ok rest) => (after.endOptional true, .ok rest)
    | (after, .error _) => (after.endOptional false, .ok text)

def parseAllWith (expand : Node → Context → List Char → Parsed) (s : Settings) :
    List Node → Context → List Char → Parsed
  | [], c, text => (c, .ok text)
  | node :: nodes, c, text =>
    match parseWith expand s node c text with
    | (after, .ok rest) => parseAllWith expand s nodes after rest
    | other => other

end

/-- Reads a node with instants and localized patterns inside each other up to a depth. -/
def parseTo (s : Settings) : (depth : Nat) → Node → Context → List Char → Parsed
  | 0 => parseWith (fun _ c text => (c, .error text)) s
  | depth + 1 => parseWith (parseTo s depth) s

/-- Reads a node. Neither the parts of instants nor patterns hold instants or localized patterns, so
a depth of one is enough. -/
def parse (s : Settings) (node : Node) (c : Context) (text : List Char) : Parsed :=
  parseTo s 1 node c text

end Node

end DateTimeText
