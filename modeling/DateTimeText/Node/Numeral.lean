import DateTimeText.Node.Reading
import DateTimeText.Style
import DateTimeText.Text.Decimal

/-!
# Numbers

A number is written with digits between a least and a greatest width. Numbers may stand side by
side: one of variable width then leaves the digits of the numbers of fixed width after it. A reduced
number shows the last digits of its value and is read back into a window that starts at a base
value.
-/

namespace DateTimeText

def maxDigits : Nat := 19

/-- How a number shares a row of digits with its neighbours. -/
inductive Adjacency
  /-- The number leaves some digits for the numbers after it. -/
  | reserves (digits : Nat)
  /-- The number has its fixed width in a row of digits. -/
  | fixed
deriving DecidableEq, Repr

/-- The values from `base` on that a reduced number is read into. -/
structure Window where
  base : Int
  span : Int
deriving DecidableEq, Repr

/-- The value of the window whose last digits are those of `v`. -/
def Window.decode (w : Window) (v : Int) : Int :=
  let start := w.base - w.base.tmod w.span
  let value := if 0 < w.base then start + v else start - v
  if value < w.base then value + w.span else value

/-- A field as a row of digits. -/
structure Numeral where
  field : Field
  minWidth : Nat
  maxWidth : Nat
  sign : SignStyle
  adjacency : Adjacency
  window : Option Window
deriving DecidableEq, Repr

namespace Numeral

/-- A number that is not reduced and leaves no digits. -/
def plain (field : Field) (minWidth maxWidth : Nat) (sign : SignStyle) : Numeral :=
  ⟨field, minWidth, maxWidth, sign, .reserves 0, none⟩

def reduced (field : Field) (width : Nat) (base : Int) : Except ConfigurationError Numeral :=
  if width < 1 ∨ 18 < width then .error (.reducedWidth width)
  else if base ∉ field.range then .error .reducedBase
  else if 2147483647 < base + tenPow width then .error .reducedWindow
  else .ok { plain field width width .notNegative with window := some ⟨base, tenPow width⟩ }

/-- The number in a row of digits that another number of variable width starts. -/
def asFixed (n : Numeral) : Numeral :=
  if n.window.isSome then n else { n with adjacency := .fixed }

/-- The number with more digits left for those after it. -/
def reserve (n : Numeral) (digits : Nat) : Numeral :=
  match n.adjacency with
  | .reserves k => { n with adjacency := .reserves (k + digits) }
  | .fixed => n

/-- The digits that a number leaves for those after it. -/
def reserved (n : Numeral) : Nat :=
  match n.adjacency with
  | .reserves k => k
  | .fixed => 0

/-- Whether a number keeps its least width even in lenient mode. -/
def keepsWidth (n : Numeral) : Bool :=
  n.window.isSome || n.adjacency == .fixed

/-- The value whose digits are written. -/
def shown (n : Numeral) (value : Int) : Int :=
  match n.window with
  | some w => (value.tmod w.span).natAbs
  | none => value

def render (n : Numeral) (s : Symbols) (value : Int) : Except PrintError (List Char) :=
  let v := n.shown value
  let digits := decimal v.natAbs
  let body := List.replicate (n.minWidth - digits.length) s.zero ++ s.localize digits
  if n.maxWidth < digits.length then .error (.tooWide n.field v n.maxWidth)
  else if v < 0 then
    match n.sign with
    | .notNegative => .error (.negative n.field v)
    | .never => .ok body
    | _ => .ok (s.negative :: body)
  else
    match n.sign with
    | .always => .ok (s.positive :: body)
    | .exceedsPad =>
      if n.minWidth < maxDigits ∧ tenPow n.minWidth ≤ v then .ok (s.positive :: body) else .ok body
    | _ => .ok body

/-- The value that a number read as `v` stands for. -/
def decode (n : Numeral) (v : Int) : Int :=
  match n.window with
  | some w => w.decode v
  | none => v

inductive Sign
  | positive
  | negative
deriving DecidableEq, Repr

/-- Reads the digits of a number whose text starts at `start` and whose digits start at `body`,
after a sign if there is one. A number of more than 64 bits leaves its last digit. -/
def readDigits (n : Numeral) (s : Symbols) (strict : Bool) (sign : Option Sign)
    (start body : List Char) : Except (List Char) Reading :=
  let least := if strict || n.keepsWidth then n.minWidth else 1
  let run := s.digitRun (n.maxWidth + n.reserved) body
  let count := max least (run.length - n.reserved)
  let total : Int := ofDigits (run.take count)
  let value := if sign = some .negative then -total else total
  let padded := strict && n.sign == .exceedsPad
  if run.length < least then .error body
  else if sign = some .negative ∧ total = 0 ∧ strict then .error start
  else if sign = some .positive ∧ padded ∧ count ≤ n.minWidth then .error start
  else if sign = none ∧ padded ∧ n.minWidth < count then .error body
  else if FitsInt64 value then
    .ok (.value n.field (n.decode value) body (body.drop count))
  else
    .ok (.value n.field (n.decode (value.tdiv 10)) body (body.drop (count - 1)))

def read (n : Numeral) (s : Symbols) (strict : Bool) : List Char → Except (List Char) Reading
  | [] => .error []
  | c :: rest =>
    let fixedWidth := n.minWidth == n.maxWidth
    if c = s.positive then
      if n.sign.admits true strict fixedWidth then
        n.readDigits s strict (some .positive) (c :: rest) rest
      else .error (c :: rest)
    else if c = s.negative then
      if n.sign.admits false strict fixedWidth then
        n.readDigits s strict (some .negative) (c :: rest) rest
      else .error (c :: rest)
    else if n.sign = .always ∧ strict then .error (c :: rest)
    else n.readDigits s strict none (c :: rest) (c :: rest)

def describe (n : Numeral) : String :=
  match n.window with
  | some w => s!"ReducedValue({n.field.name},{n.minWidth},{w.base})"
  | none =>
    if n.minWidth = 1 ∧ n.maxWidth = maxDigits ∧ n.sign = .normal then s!"Value({n.field.name})"
    else if n.minWidth = n.maxWidth ∧ n.sign = .notNegative then
      s!"Value({n.field.name},{n.minWidth})"
    else s!"Value({n.field.name},{n.minWidth},{n.maxWidth},{n.sign.name})"

end Numeral

end DateTimeText
