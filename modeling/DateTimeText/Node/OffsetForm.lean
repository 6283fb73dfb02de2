import DateTimeText.Mode
import DateTimeText.Node.Reading
import DateTimeText.Offset.Pattern

/-!
# Offsets as text

An offset is written with a sign and two digits for each of its parts, or as a text of its own if
all parts that are written are zero.
-/

namespace DateTimeText

/-- A form of offsets with the text of a zero offset. -/
structure OffsetForm where
  zeroText : List Char
  pattern : OffsetPattern
deriving DecidableEq, Repr

namespace OffsetForm

def iso : OffsetForm := ⟨['Z'], .hoursColonMinutesOptionalSeconds⟩

/-- The last two digits of a number. -/
def twoDigits (n : Nat) : List Char :=
  [Nat.digitChar (n / 10 % 10), Nat.digitChar (n % 10)]

/-- Whether a part is written. -/
def writes (use : PartUse) (n : Nat) : Bool :=
  match use with
  | .absent => false
  | .optional => n != 0
  | .mandatory => true

/-- The hours of a total of seconds, without those beyond 99. -/
def hoursOf (total : Int) : Nat := ((total.tdiv 3600).tmod 100).natAbs

def minutesOf (total : Int) : Nat := ((total.tdiv 60).tmod 60).natAbs

def secondsOf (total : Int) : Nat := (total.tmod 60).natAbs

/-- The parts of an offset that are written. -/
def parts (p : OffsetPattern) (total : Int) : List Nat :=
  hoursOf total ::
    if writes p.minutes (minutesOf total) then
      minutesOf total :: if writes p.seconds (secondsOf total) then [secondsOf total] else []
    else []

/-- Parts of an offset with what stands between them. -/
def joinParts (p : OffsetPattern) (parts : List Nat) : List Char :=
  (parts.map twoDigits).intersperse (if p.hasColons then [':'] else []) |>.flatten

/-- The text of an offset: that of a zero offset if all parts that are written are zero. -/
def render (o : OffsetForm) (total : Int) : Except PrintError (List Char) :=
  if total < -2147483648 ∨ 2147483647 < total then .error .offsetOutOfRange
  else if (parts o.pattern total).all (· == 0) then .ok o.zeroText
  else .ok ((if total < 0 then '-' else '+') :: joinParts o.pattern (parts o.pattern total))

/-- Reads two digits of a number below sixty. -/
def readPair? : List Char → Option (Nat × List Char)
  | a :: b :: rest =>
    let n := 10 * (a.toNat - 48) + (b.toNat - 48)
    if a.isDigit ∧ b.isDigit ∧ n < 60 then some (n, rest) else none
  | _ => none

/-- Reads a part after the hours. -/
def readNext? (colons : Bool) (text : List Char) : Option (Nat × List Char) :=
  if colons then
    match text with
    | ':' :: rest => readPair? rest
    | _ => none
  else readPair? text

/-- Reads a part after the hours, which counts as zero if it may be missing and is. -/
def readPart? (use : PartUse) (colons : Bool) (text : List Char) : Option (Nat × List Char) :=
  match use with
  | .absent => some (0, text)
  | .optional => (readNext? colons text).or (some (0, text))
  | .mandatory => readNext? colons text

/-- Reads the parts of an offset and gives its distance from UTC in seconds. -/
def readParts? (p : OffsetPattern) (text : List Char) : Option (Nat × List Char) := do
  let (hours, text) ← readPair? text
  let (minutes, text) ← readPart? p.minutes p.hasColons text
  let (seconds, text) ← readPart? p.secondsRead p.hasColons text
  return (hours * 3600 + minutes * 60 + seconds, text)

def readSigned? (p : OffsetPattern) : List Char → Option (Int × List Char)
  | '+' :: rest => (readParts? p rest).map fun (n, rest) => ((n : Int), rest)
  | '-' :: rest => (readParts? p rest).map fun (n, rest) => (-(n : Int), rest)
  | _ => none

/-- Reads the text of a zero offset. An empty text is only found at the end. -/
def readZero? (o : OffsetForm) (mode : Mode) (text : List Char) : Option (List Char) :=
  if o.zeroText.isEmpty then if text.isEmpty then some [] else none
  else if text.isEmpty then none
  else mode.strip? o.zeroText text

/-- Reads an offset from the start of a text. If its zero offset has no text, a missing offset is
zero. -/
def read? (o : OffsetForm) (mode : Mode) (text : List Char) : Option (Int × List Char) :=
  ((o.readZero? mode text).map fun rest => (0, rest)).or <|
    (readSigned? o.pattern text).or <|
      if o.zeroText.isEmpty then some (0, text) else none

def read (o : OffsetForm) (mode : Mode) (text : List Char) : Except (List Char) Reading :=
  match o.read? mode text with
  | some (total, rest) => .ok (.value .offsetSeconds total text rest)
  | none => .error text

end OffsetForm

/-- A text with its quotes written twice. -/
def doubleQuotes : List Char → List Char
  | [] => []
  | c :: cs => if c = '\'' then '\'' :: '\'' :: doubleQuotes cs else c :: doubleQuotes cs

def OffsetForm.describe (o : OffsetForm) : List Char :=
  "Offset('".toList ++ doubleQuotes o.zeroText ++ "',".toList ++ o.pattern.name.toList ++ [')']

end DateTimeText
