import DateTimeText.Builder
import DateTimeText.Pattern

/-!
# Building formats from patterns

Each item of a pattern is a step of a builder. How often a letter is written decides between
numbers, texts and their widths.
-/

namespace DateTimeText

namespace Builder

/-- A width that a run of letters asks for, which has to fit eight bits. -/
def letterWidth (count : Nat) : Except ConfigurationError Nat :=
  if 255 < count then .error (.fixedWidth count) else .ok count

/-- Appends a year: two letters ask for the last two digits, more than three for a sign in front of
wider years. -/
def appendYear (b : Builder) (count : Nat) : Except ConfigurationError Builder :=
  if count = 2 then b.appendReduced .year 2 2000
  else do
    let width ← letterWidth count
    b.appendValueWith .year width maxDigits (if count ≤ 3 then .normal else .exceedsPad)

/-- Appends a field that has texts: one or two letters ask for its number, more for its text. -/
def appendNumberOrText (b : Builder) (letter : Char) (f : Field) (count : Nat) :
    Except ConfigurationError Builder :=
  match count with
  | 1 => .ok (b.appendValue f)
  | 2 => b.appendFixed f 2
  | 3 => .ok (b.appendText f .short)
  | 4 => .ok (b.appendText f .full)
  | 5 => .ok (b.appendText f .narrow)
  | _ => .error (.tooManyLetters letter)

/-- Appends the half of the day, which is always a text. -/
def appendHalfDay (b : Builder) (letter : Char) (f : Field) (count : Nat) :
    Except ConfigurationError Builder :=
  if count ≤ 3 then .ok (b.appendText f .short)
  else if count = 4 then .ok (b.appendText f .full)
  else if count = 5 then .ok (b.appendText f .narrow)
  else .error (.tooManyLetters letter)

def appendField (b : Builder) (letter : Char) (f : Field) (count : Nat) :
    Except ConfigurationError Builder :=
  if letter = 'y' then b.appendYear count
  else if letter = 'G' ∨ letter = 'M' ∨ letter = 'Q' ∨ letter = 'E' then
    b.appendNumberOrText letter f count
  else if letter = 'a' then b.appendHalfDay letter f count
  else if letter = 'S' then do
    let width ← letterWidth count
    b.appendFraction f width width false
  else if count = 1 then .ok (b.appendValue f)
  else do
    let width ← letterWidth count
    b.appendFixed f width

/-- The form of offsets that one to five letters stand for. -/
def offsetPattern? : Nat → Option OffsetPattern
  | 1 => some .hoursOptionalMinutes
  | 2 => some .hoursMinutes
  | 3 => some .hoursColonMinutes
  | 4 => some .hoursMinutesOptionalSeconds
  | 5 => some .hoursColonMinutesOptionalSeconds
  | _ => none

/-- The text of a zero offset for a run of the letter `x`. -/
def zeroOffsetText (count : Nat) : List Char :=
  if count = 1 then "+00".toList else if count % 2 = 0 then "+0000".toList else "+00:00".toList

/-- Appends what a run of a letter stands for. -/
def appendLetters (b : Builder) (letter : Char) (count : Nat) :
    Except ConfigurationError Builder :=
  match Field.ofLetter? letter with
  | some f => b.appendField letter f count
  | none =>
    if letter = 'z' then
      if 4 < count then .error (.tooManyLetters letter)
      else .ok (b.appendZoneText (if count = 4 then .full else .short))
    else if letter = 'V' then
      if count ≠ 2 then .error (.letterCount letter) else .ok (b.appendZone .zone)
    else if letter = 'Z' then
      if 3 < count then .error (.tooManyLetters letter)
      else .ok (b.appendOffset .hoursMinutes "+0000".toList)
    else if letter = 'X' ∨ letter = 'x' then
      match offsetPattern? count with
      | none => .error (.tooManyLetters letter)
      | some p => .ok (b.appendOffset p (if letter = 'X' then ['Z'] else zeroOffsetText count))
    else .error (.unknownLetter letter)

def applyItem (b : Builder) : PatternItem → Except ConfigurationError Builder
  | .letters letter count => b.appendLetters letter count
  | .pad width => b.padNext width ' '
  | .literal text => .ok (b.appendLiteral text)
  | .optionalStart => .ok b.startOptional
  | .optionalEnd =>
    match b.endOptional with
    | .ok b => .ok b
    | .error _ => .error .strayBracket

def appendPattern (b : Builder) (pattern : List Char) : Except ConfigurationError Builder := do
  let items ← PatternItem.parseAll pattern
  items.foldlM applyItem b

end Builder

/-- The nodes of the pattern that a localized text has in a chronology. -/
def LocalizedText.nodes (l : LocalizedText) (s : Settings) (c : Chronology) :
    Except FormatError (List Node) :=
  match s.patterns l.date l.time c s.locale with
  | .error e => .error e
  | .ok pattern =>
    match (Builder.withTexts l.texts).appendPattern pattern.toList with
    | .error e => .error (.configuration e)
    | .ok b => .ok b.nodes

end DateTimeText
