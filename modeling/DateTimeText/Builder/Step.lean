import DateTimeText.Builder.Pattern

/-!
# Steps of builders

Every change of a builder as a value. A step gives a new builder or the reason why it is refused; to
perform it is to go on with the old builder in that case.
-/

namespace DateTimeText

inductive BuildStep
  | mode (change : ModeChange)
  | value (field : Field)
  | fixed (field : Field) (width : Nat)
  | valueWith (field : Field) (minWidth maxWidth : Nat) (sign : SignStyle)
  | reduced (field : Field) (width : Nat) (base : Int)
  | fraction (field : Field) (minWidth maxWidth : Nat) (decimalPoint : Bool)
  | text (field : Field) (style : TextStyle)
  | lookup (field : Field) (table : TextTable)
  | instant
  | offset (pattern : OffsetPattern) (zeroText : List Char)
  | zone (query : ZoneQuery)
  | zoneText (style : TextStyle)
  | chronology (style : Option TextStyle)
  | localized (date time : Option FormatStyle)
  | literal (chars : List Char)
  | group (nodes : List Node) (optional : Bool)
  | pattern (chars : List Char)
  | pad (width : Nat) (fill : Char)
  | startOptional
  | endOptional
  | closeAll
  | texts (source : TextSource)

namespace BuildStep

def offsetId : BuildStep := offset OffsetForm.iso.pattern OffsetForm.iso.zeroText

end BuildStep

namespace Builder

def step (b : Builder) : BuildStep → Except ConfigurationError Builder
  | .mode change => .ok (b.append (.mode change))
  | .value f => .ok (b.appendValue f)
  | .fixed f width => b.appendFixed f width
  | .valueWith f minWidth maxWidth sign => b.appendValueWith f minWidth maxWidth sign
  | .reduced f width base => b.appendReduced f width base
  | .fraction f minWidth maxWidth decimalPoint =>
    b.appendFraction f minWidth maxWidth decimalPoint
  | .text f style => .ok (b.appendText f style)
  | .lookup f table => .ok (b.appendLookup f table)
  | .instant => .ok b.appendInstant
  | .offset pattern zeroText => .ok (b.appendOffset pattern zeroText)
  | .zone query => .ok (b.appendZone query)
  | .zoneText style => .ok (b.appendZoneText style)
  | .chronology style => .ok (b.appendChronology style)
  | .localized date time => b.appendLocalized date time
  | .literal chars => .ok (b.appendLiteral chars)
  | .group nodes optional => .ok (b.appendGroup nodes optional)
  | .pattern chars => b.appendPattern chars
  | .pad width fill => b.padNext width fill
  | .startOptional => .ok b.startOptional
  | .endOptional => b.endOptional
  | .closeAll => .ok b.closeAll
  | .texts source => .ok (b.setTexts source)

/-- The builder after steps, none of which is refused. -/
def steps (b : Builder) (list : List BuildStep) : Except ConfigurationError Builder :=
  list.foldlM step b

/-- Performs a step: the builder to go on with, and why the step was refused if it was. -/
def perform (b : Builder) (s : BuildStep) : Builder × Except ConfigurationError Unit :=
  match b.step s with
  | .ok after => (after, .ok ())
  | .error e => (b, .error e)

/-- The builder after steps of which some may be refused. -/
def performAll (b : Builder) (list : List BuildStep) : Builder :=
  list.foldl (fun b s => (b.perform s).1) b

end Builder

end DateTimeText
