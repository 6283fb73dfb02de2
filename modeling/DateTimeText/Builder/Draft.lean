import DateTimeText.Builder.Step

/-!
# Formats that are changed in place

A draft is a format under construction that its calls change in place. A call that fails has changed
what it changed until then: nothing takes a change back. So each call looks at its arguments before
it changes anything, and a pattern is put on a copy of the draft, which replaces it in the end.
-/

namespace DateTimeText

/-- A format under construction: its open sections from the inside to the outside, and the texts of
fields that are appended next. -/
structure Draft where
  scopes : List Scope
  texts : TextSource

def Builder.draft (b : Builder) : Draft := ⟨b.active :: b.enclosing, b.texts⟩

namespace Draft

def withTexts (texts : TextSource) : Draft := ⟨[.empty], texts⟩

/-- A call, which leaves a draft whether it fails or not. -/
abbrev Edit (α : Type) : Type := EStateM FormatError Draft α

def refuse {α : Type} (e : ConfigurationError) : Edit α :=
  throw (.configuration e)

def check {α : Type} : Except ConfigurationError α → Edit α
  | .ok a => pure a
  | .error e => refuse e

/-! ### Sections -/

/-- The innermost open section. There always is one, or the library is at fault. -/
def active : Edit Scope := do
  match (← get).scopes with
  | sc :: _ => return sc
  | [] => throw (.reported .assertion "" none)

/-- Changes the innermost open section if there is one. -/
def changeActive (change : Scope → Scope) : Edit Unit :=
  modify fun d =>
    match d.scopes with
    | sc :: outer => { d with scopes := change sc :: outer }
    | [] => d

/-- Appends a node, padded if a pad is pending, and gives its place if it may become the anchor. -/
def append (node : Node) : Edit (Option Nat) := do
  match (← get).scopes with
  | [] => return none
  | sc :: _ =>
    changeActive fun sc => { sc with anchor := none }
    changeActive fun sc => { sc with pendingPad := none }
    match sc.pendingPad with
    | some (width, fill) =>
      changeActive fun sc => { sc with nodes := sc.nodes ++ [.pad node width fill] }
      return none
    | none =>
      changeActive fun sc => { sc with nodes := sc.nodes ++ [node] }
      return some sc.nodes.length

def appendNode (node : Node) : Edit Unit :=
  discard (append node)

def appendAnchor (n : Numeral) : Edit Unit := do
  let place ← append (.numeral n)
  changeActive fun sc => { sc with anchor := place }

/-- Appends a number of fixed width. The anchor first comes to leave its digits to it. -/
def appendJoined (width : Nat) (n : Numeral) : Edit Unit := do
  let sc ← active
  match sc.anchor? with
  | none => appendNode (.numeral n)
  | some (place, base) =>
    changeActive fun sc => { sc with nodes := sc.nodes.set place (.numeral (base.reserve width)) }
    appendNode (.numeral n.asFixed)
    let _ ← active
    changeActive fun sc => { sc with anchor := some place }

/-! ### Numbers, texts and literals -/

def appendValue (f : Field) : Edit Unit :=
  appendAnchor (.plain f 1 maxDigits .normal)

def appendFixed (f : Field) (width : Nat) : Edit Unit :=
  if width < 1 ∨ maxDigits < width then refuse (.fixedWidth width)
  else appendJoined width (.plain f width width .notNegative)

def appendValueWith (f : Field) (minWidth maxWidth : Nat) (sign : SignStyle) : Edit Unit :=
  if minWidth = maxWidth ∧ sign = .notNegative then appendFixed f maxWidth
  else if minWidth < 1 ∨ maxDigits < minWidth then refuse (.minWidth minWidth)
  else if maxWidth < 1 ∨ maxDigits < maxWidth then refuse (.maxWidth maxWidth)
  else if maxWidth < minWidth then refuse (.widthOrder maxWidth minWidth)
  else if minWidth = maxWidth then appendNode (.numeral (.plain f minWidth maxWidth sign))
  else appendAnchor (.plain f minWidth maxWidth sign)

def appendReduced (f : Field) (width : Nat) (base : Int) : Edit Unit := do
  let n ← check (Numeral.reduced f width base)
  appendJoined width n

def appendFraction (f : Field) (minWidth maxWidth : Nat) (decimalPoint : Bool) : Edit Unit := do
  let n ← check (Fraction.of f minWidth maxWidth decimalPoint)
  appendNode (.leaf (.fraction n))

def appendText (f : Field) (style : TextStyle) : Edit Unit := do
  let texts := (← get).texts
  appendNode (.leaf (.text ⟨f, style, texts⟩))

def appendLocalized (date time : Option FormatStyle) : Edit Unit := do
  if date = none ∧ time = none then refuse .noLocalizedStyle
  else
    let texts := (← get).texts
    appendNode (.localized ⟨date, time, texts⟩)

def appendLiteral (text : List Char) : Edit Unit :=
  if text.isEmpty then pure () else appendNode (.literal text)

/-! ### Pads and optional sections -/

def padNext (width : Nat) (fill : Char) : Edit Unit := do
  if width < 1 then refuse (.padWidth width)
  else
    let _ ← active
    changeActive fun sc => { sc with pendingPad := some (width, fill) }
    changeActive fun sc => { sc with anchor := none }

def startOptional : Edit Unit := do
  changeActive fun sc => { sc with anchor := none }
  modify fun d => { d with scopes := .empty :: d.scopes }

/-- Ends the innermost section, if it is not the outermost too. -/
def closeOptional : Edit Unit := do
  match (← get).scopes with
  | sc :: outer :: rest =>
    modify fun d => { d with scopes := outer :: rest }
    if sc.nodes.isEmpty then pure () else appendNode (.group sc.nodes true)
  | _ => pure ()

def endOptional : Edit Unit := do
  if (← get).scopes.length < 2 then refuse .noOpenSection else closeOptional

def closeAll : Edit Unit := do
  (← get).scopes.tail.forM fun _ => closeOptional

/-! ### Patterns -/

def appendYear (count : Nat) : Edit Unit :=
  if count = 2 then appendReduced .year 2 2000
  else do
    let width ← check (Builder.letterWidth count)
    appendValueWith .year width maxDigits (if count ≤ 3 then .normal else .exceedsPad)

def appendNumberOrText (letter : Char) (f : Field) (count : Nat) : Edit Unit :=
  match count with
  | 1 => appendValue f
  | 2 => appendFixed f 2
  | 3 => appendText f .short
  | 4 => appendText f .full
  | 5 => appendText f .narrow
  | _ => refuse (.tooManyLetters letter)

def appendHalfDay (letter : Char) (f : Field) (count : Nat) : Edit Unit :=
  if count ≤ 3 then appendText f .short
  else if count = 4 then appendText f .full
  else if count = 5 then appendText f .narrow
  else refuse (.tooManyLetters letter)

def appendField (letter : Char) (f : Field) (count : Nat) : Edit Unit :=
  if letter = 'y' then appendYear count
  else if letter = 'G' ∨ letter = 'M' ∨ letter = 'Q' ∨ letter = 'E' then
    appendNumberOrText letter f count
  else if letter = 'a' then appendHalfDay letter f count
  else if letter = 'S' then do
    let width ← check (Builder.letterWidth count)
    appendFraction f width width false
  else if count = 1 then appendValue f
  else do
    let width ← check (Builder.letterWidth count)
    appendFixed f width

def appendLetters (letter : Char) (count : Nat) : Edit Unit :=
  match Field.ofLetter? letter with
  | some f => appendField letter f count
  | none =>
    if letter = 'z' then
      if 4 < count then refuse (.tooManyLetters letter)
      else appendNode (.leaf (.zoneText (if count = 4 then .full else .short)))
    else if letter = 'V' then
      if count ≠ 2 then refuse (.letterCount letter) else appendNode (.leaf (.zone .zone))
    else if letter = 'Z' then
      if 3 < count then refuse (.tooManyLetters letter)
      else appendNode (.leaf (.offset ⟨"+0000".toList, .hoursMinutes⟩))
    else if letter = 'X' ∨ letter = 'x' then
      match Builder.offsetPattern? count with
      | none => refuse (.tooManyLetters letter)
      | some p =>
        appendNode (.leaf (.offset
          ⟨if letter = 'X' then ['Z'] else Builder.zeroOffsetText count, p⟩))
    else refuse (.unknownLetter letter)

def applyItem : PatternItem → Edit Unit
  | .letters letter count => appendLetters letter count
  | .pad width => padNext width ' '
  | .literal text => appendLiteral text
  | .optionalStart => startOptional
  | .optionalEnd => tryCatch endOptional fun _ => refuse .strayBracket

/-- Makes a call on a copy of the draft, which replaces the draft unless the call fails. -/
def onCopy (edit : Edit Unit) : Edit Unit := do
  match edit.run (← get) with
  | .ok _ copy => set copy
  | .error e _ => throw e

def appendPattern (pattern : List Char) : Edit Unit := do
  let items ← check (PatternItem.parseAll pattern)
  onCopy (items.forM applyItem)

/-! ### Calls -/

def call : BuildStep → Edit Unit
  | .mode change => appendNode (.mode change)
  | .value f => appendValue f
  | .fixed f width => appendFixed f width
  | .valueWith f minWidth maxWidth sign => appendValueWith f minWidth maxWidth sign
  | .reduced f width base => appendReduced f width base
  | .fraction f minWidth maxWidth decimalPoint => appendFraction f minWidth maxWidth decimalPoint
  | .text f style => appendText f style
  | .lookup f table =>
    appendNode (.leaf (.text ⟨f, .full, (TextStore.ofFullTexts table).source⟩))
  | .instant => appendNode .instant
  | .offset pattern zeroText => appendNode (.leaf (.offset ⟨zeroText, pattern⟩))
  | .zone query => appendNode (.leaf (.zone query))
  | .zoneText style => appendNode (.leaf (.zoneText style))
  | .chronology style => appendNode (.leaf (.chronology style))
  | .localized date time => appendLocalized date time
  | .literal chars => appendLiteral chars
  | .group nodes optional => appendNode (.group nodes optional)
  | .pattern chars => appendPattern chars
  | .pad width fill => padNext width fill
  | .startOptional => startOptional
  | .endOptional => endOptional
  | .closeAll => closeAll
  | .texts source => modify fun d => { d with texts := source }

/-- The draft that a call leaves, whether it fails or not. -/
def left {ε α : Type} : EStateM.Result ε Draft α → Draft
  | .ok _ d => d
  | .error _ d => d

/-- The draft after calls of which some may fail. -/
def callAll (d : Draft) (calls : List BuildStep) : Draft :=
  calls.foldl (fun d s => left ((call s).run d)) d

end Draft

end DateTimeText
