import DateTimeText.Node

/-!
# Building formats

A builder appends nodes to the innermost of its open sections. A number of variable width is the
anchor of the numbers of fixed width that follow it without anything in between, and leaves their
digits to them. A pad applies to the next node. A step that fails leaves the builder as it was,
since it gives no other.
-/

namespace DateTimeText

/-- The nodes of an open section, the place of its anchor and the pad of its next node. -/
structure Scope where
  nodes : List Node
  anchor : Option Nat
  pendingPad : Option (Nat × Char)

namespace Scope

def empty : Scope := ⟨[], none, none⟩

/-- The section with one more node, padded if a pad is pending. No node is the anchor any more. -/
def push (sc : Scope) (node : Node) : Scope :=
  match sc.pendingPad with
  | some (width, fill) => ⟨sc.nodes ++ [.pad node width fill], none, none⟩
  | none => ⟨sc.nodes ++ [node], none, none⟩

/-- The section with one more number of variable width, which is the anchor unless it is padded. -/
def pushAnchor (sc : Scope) (n : Numeral) : Scope :=
  { sc.push (.numeral n) with
    anchor := if sc.pendingPad.isSome then none else some sc.nodes.length }

/-- The anchor of a section and its place. -/
def anchor? (sc : Scope) : Option (Nat × Numeral) :=
  sc.anchor.bind fun i =>
    match sc.nodes[i]? with
    | some (.leaf (.numeral n)) => some (i, n)
    | _ => none

/-- The section with one more number of fixed width, whose digits the anchor leaves to it. -/
def pushFixed (sc : Scope) (width : Nat) (n : Numeral) : Scope :=
  match sc.anchor? with
  | none => sc.push (.numeral n)
  | some (i, base) =>
    let reserved := { sc with nodes := sc.nodes.set i (.numeral (base.reserve width)) }
    { reserved.push (.numeral n.asFixed) with anchor := some i }

/-- The section around a section that ends. An empty section leaves no trace. -/
def close (inner outer : Scope) : Scope :=
  if inner.nodes.isEmpty then outer else outer.push (.group inner.nodes true)

/-- The outermost section after all sections inside it have ended. -/
def closeAll : Scope → List Scope → Scope
  | active, [] => active
  | active, outer :: rest => closeAll (active.close outer) rest

end Scope

/-- A format under construction: its innermost open section, the sections around it from the inside
to the outside, and the texts of fields that are appended next. -/
structure Builder where
  active : Scope
  enclosing : List Scope
  texts : TextSource

namespace Builder

def withTexts (texts : TextSource) : Builder := ⟨.empty, [], texts⟩

def mapActive (b : Builder) (change : Scope → Scope) : Builder :=
  { b with active := change b.active }

/-- Sets the texts of fields that are appended from here on. -/
def setTexts (b : Builder) (texts : TextSource) : Builder :=
  { b with texts := texts }

def append (b : Builder) (node : Node) : Builder :=
  b.mapActive (·.push node)

/-- Appends a number with as many digits as it needs and a sign only if it is negative. -/
def appendValue (b : Builder) (f : Field) : Builder :=
  b.mapActive (·.pushAnchor (.plain f 1 maxDigits .normal))

/-- Appends a number of a fixed width that is not negative. -/
def appendFixed (b : Builder) (f : Field) (width : Nat) : Except ConfigurationError Builder :=
  if width < 1 ∨ maxDigits < width then .error (.fixedWidth width)
  else .ok (b.mapActive (·.pushFixed width (.plain f width width .notNegative)))

def appendValueWith (b : Builder) (f : Field) (minWidth maxWidth : Nat) (sign : SignStyle) :
    Except ConfigurationError Builder :=
  if minWidth = maxWidth ∧ sign = .notNegative then b.appendFixed f maxWidth
  else if minWidth < 1 ∨ maxDigits < minWidth then .error (.minWidth minWidth)
  else if maxWidth < 1 ∨ maxDigits < maxWidth then .error (.maxWidth maxWidth)
  else if maxWidth < minWidth then .error (.widthOrder maxWidth minWidth)
  else
    let n := Numeral.plain f minWidth maxWidth sign
    .ok (if minWidth = maxWidth then b.append (.numeral n) else b.mapActive (·.pushAnchor n))

/-- Appends the last digits of a number, to be read back into a window from `base` on. -/
def appendReduced (b : Builder) (f : Field) (width : Nat) (base : Int) :
    Except ConfigurationError Builder :=
  (Numeral.reduced f width base).map fun n => b.mapActive (·.pushFixed width n)

def appendFraction (b : Builder) (f : Field) (minWidth maxWidth : Nat) (decimalPoint : Bool) :
    Except ConfigurationError Builder :=
  (Fraction.of f minWidth maxWidth decimalPoint).map fun n => b.append (.leaf (.fraction n))

def appendText (b : Builder) (f : Field) (style : TextStyle) : Builder :=
  b.append (.leaf (.text ⟨f, style, b.texts⟩))

def appendLookup (b : Builder) (f : Field) (table : TextTable) : Builder :=
  b.append (.leaf (.text ⟨f, .full, (TextStore.ofFullTexts table).source⟩))

def appendInstant (b : Builder) : Builder :=
  b.append .instant

def appendOffset (b : Builder) (pattern : OffsetPattern) (zeroText : List Char) : Builder :=
  b.append (.leaf (.offset ⟨zeroText, pattern⟩))

def appendZone (b : Builder) (query : ZoneQuery) : Builder :=
  b.append (.leaf (.zone query))

def appendZoneText (b : Builder) (style : TextStyle) : Builder :=
  b.append (.leaf (.zoneText style))

/-- Appends the id of a chronology or, with a style, its name. -/
def appendChronology (b : Builder) (style : Option TextStyle) : Builder :=
  b.append (.leaf (.chronology style))

/-- Appends the localized pattern of a date style and a time style. -/
def appendLocalized (b : Builder) (date time : Option FormatStyle) :
    Except ConfigurationError Builder :=
  if date = none ∧ time = none then .error .noLocalizedStyle
  else .ok (b.append (.localized ⟨date, time, b.texts⟩))

/-- Appends a literal. An empty one appends nothing. -/
def appendLiteral (b : Builder) (text : List Char) : Builder :=
  if text.isEmpty then b else b.append (.literal text)

def appendGroup (b : Builder) (nodes : List Node) (optional : Bool) : Builder :=
  b.append (.group nodes optional)

/-- Pads the next node to a width. -/
def padNext (b : Builder) (width : Nat) (fill : Char) : Except ConfigurationError Builder :=
  if width < 1 then .error (.padWidth width)
  else .ok (b.mapActive fun sc => ⟨sc.nodes, none, some (width, fill)⟩)

def startOptional (b : Builder) : Builder :=
  { b with active := .empty, enclosing := { b.active with anchor := none } :: b.enclosing }

def endOptional (b : Builder) : Except ConfigurationError Builder :=
  match b.enclosing with
  | [] => .error .noOpenSection
  | outer :: rest => .ok { b with active := b.active.close outer, enclosing := rest }

def closeAll (b : Builder) : Builder :=
  { b with active := b.active.closeAll b.enclosing, enclosing := [] }

def nodes (b : Builder) : List Node :=
  b.closeAll.active.nodes

end Builder

end DateTimeText
