import DateTimeText.Field.Range

/-!
# Errors

The causes for which a format cannot be set up, a value cannot be written or a text cannot be read,
and the wording of each.
-/

namespace DateTimeText

/-- Why a value or a step of a format is refused. -/
inductive ConfigurationError
  | yearOutOfRange
  | invalidDate
  | invalidTime
  /-- A second or more in the nanoseconds of an instant. -/
  | nanosOutOfRange
  | offsetOutOfRange
  /-- Parts of an offset on both sides of zero. -/
  | offsetSigns
  /-- Sixty or more minutes or seconds in an offset. -/
  | offsetParts
  | noPatternStyle
  | noLocalizedStyle
  | fixedWidth (width : Nat)
  | minWidth (width : Nat)
  | maxWidth (width : Nat)
  | widthOrder (maxWidth minWidth : Nat)
  | reducedWidth (width : Nat)
  /-- A base value outside the range of its field. -/
  | reducedBase
  /-- A window of reduced values that ends too far. -/
  | reducedWindow
  | fractionField (field : Field)
  | fractionMinWidth (width : Nat)
  | fractionMaxWidth (width : Nat)
  | fractionWidthOrder (maxWidth minWidth : Nat)
  | padWidth (width : Nat)
  | noOpenSection
  /-- A pad letter with nothing to pad after it. -/
  | danglingPad (pattern : String)
  /-- A quoted literal without its last quote. -/
  | openLiteral (pattern : String)
  | reservedCharacter (char : Char)
  | strayBracket
  | tooManyLetters (letter : Char)
  /-- A letter that has to stand twice. -/
  | letterCount (letter : Char)
  | unknownLetter (letter : Char)
deriving DecidableEq, Repr

def ConfigurationError.message : ConfigurationError → String
  | yearOutOfRange => "Year is out of range."
  | invalidDate => "not a valid ISO date."
  | invalidTime => "IsoTime is not valid"
  | nanosOutOfRange => "Nanosecond adjustment must be below one second"
  | offsetOutOfRange => "Zone offset not in valid range: -18:00 to +18:00"
  | offsetSigns => "Zone offset hours, minutes and seconds must have the same sign"
  | offsetParts => "Zone offset minutes and seconds must be in the range 0 to 59"
  | noPatternStyle => "Either the date or time style must be present"
  | noLocalizedStyle => "Either the date or time style must be non-null"
  | fixedWidth w => s!"The width must be from 1 to 19 inclusive but was {w}"
  | minWidth w => s!"The minimum width must be from 1 to 19 inclusive but was {w}"
  | maxWidth w => s!"The maximum width must be from 1 to 19 inclusive but was {w}"
  | widthOrder hi lo =>
    s!"The maximum width must exceed or equal the minimum width but {hi} < {lo}"
  | reducedWidth w => s!"The width must be from 1 to 18 inclusive but was {w}"
  | reducedBase => "The base value must be within the range of the field"
  | reducedWindow => "Unable to add printer-parser as the range exceeds the capacity of an int"
  | fractionField f => s!"Field must have a fixed set of values: {f.name}"
  | fractionMinWidth w => s!"Minimum width must be from 0 to 9 inclusive but was {w}"
  | fractionMaxWidth w => s!"Maximum width must be from 1 to 9 inclusive but was {w}"
  | fractionWidthOrder hi lo =>
    s!"Maximum width must exceed or equal the minimum width but {hi} < {lo}"
  | padWidth w => s!"The pad width must be at least one but was {w}"
  | noOpenSection =>
    "Cannot call optional_end() as there was no previous call to optional_start()"
  | danglingPad p => s!"Pad letter 'p' must be followed by valid pad pattern: {p}"
  | openLiteral p => s!"Pattern ends with an incomplete string literal: {p}"
  | reservedCharacter c => s!"Pattern includes reserved character: '{c}'"
  | strayBracket => "Pattern invalid as it contains ] without previous ["
  | tooManyLetters c => s!"Too many pattern letters: {c}"
  | letterCount c => s!"Pattern letter count must be 2: {c}"
  | unknownLetter c => s!"Unknown pattern letter: {c}"

/-- Why a value cannot be written. -/
inductive PrintError
  | outOfRange (field : Field) (range : ValueRange) (value : Int)
  /-- A second of the time-line past the 64 bits it has. -/
  | instantOutOfRange
  | tooWide (field : Field) (value : Int) (width : Nat)
  | negative (field : Field) (value : Int)
  | padOverflow (length width : Nat)
  /-- Seconds of an offset past the 32 bits they have. -/
  | offsetOutOfRange
  /-- A value that is not there, outside every optional section. -/
  | unavailable
deriving DecidableEq, Repr

def PrintError.message : PrintError → String
  | outOfRange f r v => s!"Invalid value for {f.name} (valid values {r.describe}): {v}"
  | instantOutOfRange => "Instant exceeds supported range"
  | tooWide f v w =>
    s!"Field {f.name} cannot be printed as the value {v} exceeds the maximum print width of {w}"
  | negative f v =>
    s!"Field {f.name} cannot be printed as the value {v} cannot be negative " ++
      "according to the SignStyle"
  | padOverflow n w => s!"Cannot print as output of {n} characters exceeds pad width of {w}"
  | offsetOutOfRange => "Offset seconds exceed the capacity of an int"
  | unavailable => "Unable to extract value"

/-- Why a text, given in its short form, cannot be read. -/
inductive ParseError
  /-- A value that was read lies outside the range of its field. -/
  | invalidValue (text : String) (cause : PrintError)
  /-- Text is left over from a character on. -/
  | unparsedText (text : String) (index : Nat)
  /-- The text does not fit the format at a character. -/
  | mismatch (text : String) (index : Nat)
deriving DecidableEq, Repr

def ParseError.message : ParseError → String
  | invalidValue t e => s!"Text '{t}' could not be parsed: {e.message}"
  | unparsedText t i => s!"Text '{t}' could not be parsed, unparsed text found at index {i}"
  | mismatch t i => s!"Text '{t}' could not be parsed at index {i}"

/-- The character at which reading stopped, or zero for a value out of range. -/
def ParseError.index : ParseError → Nat
  | invalidValue _ _ => 0
  | unparsedText _ i => i
  | mismatch _ i => i

inductive ErrorKind
  | general
  | configuration
  | print
  | parse
  | assertion
deriving DecidableEq, Repr

def ErrorKind.name : ErrorKind → String
  | general => "Error"
  | configuration => "ConfigurationError"
  | print => "PrintError"
  | parse => "ParseError"
  | assertion => "ImplementationError"

/-- An error of the library, or one reported by a source of patterns that a caller supplies. -/
inductive FormatError
  | configuration (cause : ConfigurationError)
  | print (cause : PrintError)
  | parse (cause : ParseError)
  | fractionDigits
  | reported (kind : ErrorKind) (message : String) (index : Option Nat)
deriving DecidableEq, Repr

namespace FormatError

def kind : FormatError → ErrorKind
  | configuration _ => .configuration
  | print _ => .print
  | parse _ => .parse
  | fractionDigits => .assertion
  | reported k _ _ => k

def message : FormatError → String
  | configuration e => e.message
  | print e => e.message
  | parse e => e.message
  | fractionDigits => ""
  | reported _ m _ => m

/-- The character of the text that an error is about. -/
def index : FormatError → Option Nat
  | parse e => some e.index
  | reported _ _ i => i
  | _ => none

/-- The text of an error: its kind and, if there is one, its wording. -/
def describe (e : FormatError) : String :=
  if e.message.isEmpty then e.kind.name else s!"{e.kind.name}: {e.message}"

end FormatError

/-- A value, if it lies in the range of its field. -/
def ValueRange.check (r : ValueRange) (f : Field) (v : Int) : Except PrintError Int :=
  if v ∈ r then .ok v else .error (.outOfRange f r v)

inductive NameError
  | field
  | signStyle
  | textStyle
  | formatStyle
  | offsetPattern
  | chronology
deriving DecidableEq, Repr

def NameError.message : NameError → String
  | field => "provided string was not a valid DateTimeField"
  | signStyle => "provided string was not a valid SignStyle"
  | textStyle => "provided string was not a valid TextStyle"
  | formatStyle => "provided string was not a valid FormatStyle"
  | offsetPattern => "provided string was not a valid offset pattern"
  | chronology => "provided string was not a known chronology id or calendar type"

end DateTimeText
