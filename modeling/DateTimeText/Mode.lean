import DateTimeText.Text.Case

/-!
# Modes of reading

Reading starts strict and with regard to case. Nodes of a format may change either on the way.
-/

namespace DateTimeText

/-- How a text is compared and how exact it has to be. -/
structure Mode where
  caseSensitive : Bool
  strict : Bool
deriving DecidableEq, Repr

namespace Mode

/-- The mode in which every reading starts. -/
def initial : Mode := ⟨true, true⟩

def sameChar (mode : Mode) (a b : Char) : Bool :=
  if mode.caseSensitive then a == b else sameLetter a b

@[simp] theorem sameChar_self (mode : Mode) (c : Char) : mode.sameChar c c = true := by
  simp [sameChar]

/-- The text that follows an expected one. -/
def strip? (mode : Mode) : (expected text : List Char) → Option (List Char)
  | [], text => some text
  | _ :: _, [] => none
  | e :: expected, c :: text => if mode.sameChar e c then strip? mode expected text else none

end Mode

/-- A step that changes the mode. -/
inductive ModeChange
  | caseSensitive
  | caseInsensitive
  | strict
  | lenient
deriving DecidableEq, Repr

namespace ModeChange

def apply : ModeChange → Mode → Mode
  | caseSensitive, mode => { mode with caseSensitive := true }
  | caseInsensitive, mode => { mode with caseSensitive := false }
  | strict, mode => { mode with strict := true }
  | lenient, mode => { mode with strict := false }

def describe : ModeChange → String
  | caseSensitive => "ParseCaseSensitive(true)"
  | caseInsensitive => "ParseCaseSensitive(false)"
  | strict => "ParseStrict(true)"
  | lenient => "ParseStrict(false)"

end ModeChange

end DateTimeText
