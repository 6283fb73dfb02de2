import DateTimeText.Builder.Step
import DateTimeText.FieldText.English
import DateTimeText.Node.Parse
import DateTimeText.Node.Print
import DateTimeText.Text.Position

/-!
# Formatters

A formatter is a format with its settings. It writes the components of a value and reads a text: all
of it, or from a position on.
-/

namespace DateTimeText

structure Formatter where
  nodes : List Node
  settings : Settings

/-- A position in a text, in bytes, and where reading failed if it did. -/
structure ParsePosition where
  index : Nat
  errorIndex : Option Nat
deriving DecidableEq, Repr

namespace Builder

/-- The builder that every format starts with, whose fields have English texts. -/
def new : Builder := .withTexts English.texts

/-- The formatter of what is built, for a locale. -/
def toFormatterWithLocale (b : Builder) (locale : String) : Formatter :=
  ⟨b.nodes, .ofLocale locale⟩

/-- The formatter of what is built, for no language. -/
def toFormatter (b : Builder) : Formatter :=
  b.toFormatterWithLocale Settings.rootLocale

end Builder

namespace Formatter

/-- The step that appends the nodes of a formatter, as an optional section or not. -/
def appended (f : Formatter) (optional : Bool) : BuildStep :=
  .group f.nodes optional

def ofPatternWithLocale (pattern : List Char) (locale : String) :
    Except ConfigurationError Formatter :=
  (Builder.new.appendPattern pattern).map (·.toFormatterWithLocale locale)

def ofPattern (pattern : List Char) : Except ConfigurationError Formatter :=
  ofPatternWithLocale pattern Settings.rootLocale

def mapSettings (f : Formatter) (change : Settings → Settings) : Formatter :=
  { f with settings := change f.settings }

def withLocale (f : Formatter) (locale : String) : Formatter :=
  f.mapSettings fun s => { s with locale := locale }

def withSymbols (f : Formatter) (symbols : Symbols) : Formatter :=
  f.mapSettings fun s => { s with symbols := symbols }

/-- The formatter with a chronology in place of the value's own. -/
def withChronology (f : Formatter) (chronology : Option Chronology) : Formatter :=
  f.mapSettings fun s => { s with chronology := chronology }

def withZones (f : Formatter) (zones : ZoneIds) : Formatter :=
  f.mapSettings fun s => { s with zones := zones }

def withChronologies (f : Formatter) (chronologies : List Chronology) : Formatter :=
  f.mapSettings fun s => { s with chronologies := chronologies }

def withPatterns (f : Formatter) (patterns : PatternSource) : Formatter :=
  f.mapSettings fun s => { s with patterns := patterns }

def root (f : Formatter) : Node := .group f.nodes false

/-- The description of a formatter: those of its nodes. -/
def describe (f : Formatter) : List Char :=
  Node.describeAll f.nodes

/-- Writes components at the end of a buffer, which stays as it was if they cannot be written. -/
def formatTo (f : Formatter) (v : Components) (buffer : List Char) :
    List Char × Except FormatError Unit :=
  match f.root.print f.settings v buffer with
  | (written, .ok true) => (written, .ok ())
  | (written, .ok false) => (written.take buffer.length, .error (.print .unavailable))
  | (written, .error e) => (written.take buffer.length, .error e)

def format (f : Formatter) (v : Components) : Except FormatError (List Char) :=
  match f.formatTo v [] with
  | (written, .ok ()) => .ok written
  | (_, .error e) => .error e

/-- Reads from the start of a text: the components with the text that is left, or the text that is
left where it does not fit. -/
def parseStart (f : Formatter) (text : List Char) : Except (List Char) (Components × List Char) :=
  match f.root.parse f.settings .initial text with
  | (after, .ok rest) => .ok (after.current, rest)
  | (_, .error rest) => .error rest

/-- Reads from a position on, and moves it behind what was read or notes where the text does not
fit. -/
def parseAt (f : Formatter) (text : List Char) (position : ParsePosition) :
    Option Components × ParsePosition :=
  match dropBytes? position.index text with
  | none => (none, { position with errorIndex := some position.index })
  | some start =>
    match f.parseStart start with
    | .ok (v, rest) => (some v, { position with index := byteLength text - byteLength rest })
    | .error rest =>
      (none, { position with errorIndex := some (byteLength text - byteLength rest) })

/-- Reads a whole text, whose values have to lie in the ranges of the chronology that was read, else
of the formatter's. -/
def parse (f : Formatter) (text : List Char) : Except ParseError Components :=
  let short := String.ofList (abbreviate text)
  match f.parseStart text with
  | .error rest => .error (.mismatch short (text.length - rest.length))
  | .ok (v, []) =>
    match v.checkRanges (f.settings.parseChronology v) with
    | .ok () => .ok v
    | .error e => .error (.invalidValue short e)
  | .ok (_, c :: rest) => .error (.unparsedText short (text.length - (c :: rest).length))

end Formatter

end DateTimeText
