import DateTimeText.Node.Reading
import DateTimeText.Text.Decimal

/-!
# Fractions

A field of a fixed range is written as the fraction of its range that its value makes, with nine
digits at most, which are cut off and not rounded.
-/

namespace DateTimeText

/-- The unit of the ninth digit of a fraction. -/
def fractionScale : Int := 1000000000

structure Fraction where
  field : Field
  minWidth : Nat
  maxWidth : Nat
  decimalPoint : Bool
deriving DecidableEq, Repr

namespace Fraction

/-- A fraction, if its field has a fixed range and its widths go from 0 to 9. -/
def of (field : Field) (minWidth maxWidth : Nat) (decimalPoint : Bool) :
    Except ConfigurationError Fraction :=
  if ¬ field.range.IsFixed then .error (.fractionField field)
  else if 9 < minWidth then .error (.fractionMinWidth minWidth)
  else if maxWidth < 1 ∨ 9 < maxWidth then .error (.fractionMaxWidth maxWidth)
  else if maxWidth < minWidth then .error (.fractionWidthOrder maxWidth minWidth)
  else .ok ⟨field, minWidth, maxWidth, decimalPoint⟩

def isoNano : Fraction := ⟨.nanoOfSecond, 0, 9, true⟩

/-- The nine digits of the fraction that a value makes of a range, as a number. -/
def nines (r : ValueRange) (value : Int) : Int :=
  (value - r.min) * fractionScale / r.span

/-- A text without the zeros at its end. -/
def trimZeros (cs : List Char) : List Char :=
  (cs.reverse.dropWhile (· == '0')).reverse

def render (n : Fraction) (s : Symbols) (value : Int) : Except FormatError (List Char) :=
  let point := if n.decimalPoint then [s.decimal] else []
  let fraction := nines n.field.range value
  let digits := zeroPadded 9 fraction.toNat
  if value ∉ n.field.range then .error (.print (.outOfRange n.field n.field.range value))
  else if fraction = 0 then
    .ok (if n.minWidth = 0 then [] else point ++ List.replicate n.minWidth s.zero)
  else if digits.length ≠ 9 then .error .fractionDigits
  else
    .ok (point ++
      s.localize (digits.take (min (max (trimZeros digits).length n.minWidth) n.maxWidth)))

/-- Reads the digits of a fraction, between `least` and `most` of them. -/
def readDigits (n : Fraction) (s : Symbols) (least most : Nat) (body : List Char) :
    Except (List Char) Reading :=
  let run := s.digitRun most body
  let value := (ofDigits run : Int) * n.field.range.span / tenPow run.length + n.field.range.min
  if run.length < least then .error body
  else .ok (.value n.field value body (body.drop run.length))

/-- Reads a fraction from the start of a text. A fraction that may have no digits may be missing. -/
def read (n : Fraction) (s : Symbols) (strict : Bool) (text : List Char) :
    Except (List Char) Reading :=
  let least := if strict then n.minWidth else 0
  let most := if strict then n.maxWidth else 9
  let missing := if 0 < least then .error text else .ok (.skip text)
  match text with
  | [] => missing
  | c :: rest =>
    if n.decimalPoint then
      if c = s.decimal then n.readDigits s least most rest else missing
    else n.readDigits s least most (c :: rest)

def describe (n : Fraction) : String :=
  s!"Fraction({n.field.name},{n.minWidth},{n.maxWidth}" ++
    (if n.decimalPoint then ",DecimalPoint" else "") ++ ")"

end Fraction

end DateTimeText
