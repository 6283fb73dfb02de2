import DateTimeText.Error

/-!
# Patterns

A pattern such as `yyyy-MM-dd HH:mm` is a text of items: runs of a letter, quoted literals, brackets
around optional sections, and other characters, which stand for themselves. `PatternItem.parseAll`
splits a pattern into its items; what the letters mean is not looked at.
-/

namespace DateTimeText

inductive PatternItem
  /-- A letter, written `count` times in a row. -/
  | letters (letter : Char) (count : Nat)
  /-- A pad of the item that follows. -/
  | pad (width : Nat)
  | literal (text : List Char)
  | optionalStart
  | optionalEnd
deriving DecidableEq, Repr

namespace PatternItem

/-- The text up to a closing quote, with doubled quotes read as one, and what follows it. -/
def quoted? : List Char → Option (List Char × List Char)
  | [] => none
  | '\'' :: '\'' :: cs => (quoted? cs).map fun (text, rest) => ('\'' :: text, rest)
  | '\'' :: cs => some ([], cs)
  | c :: cs => (quoted? cs).map fun (text, rest) => (c :: text, rest)

theorem length_lt_of_quoted? {cs text rest : List Char} (h : quoted? cs = some (text, rest)) :
    rest.length < cs.length := by
  fun_induction quoted? cs generalizing text with
  | case1 => simp at h
  | case2 cs ih =>
      obtain ⟨⟨t, r⟩, ht, he⟩ := Option.map_eq_some_iff.1 h
      cases he
      have := ih ht
      simp only [List.length_cons]
      omega
  | case3 cs =>
      cases h
      exact Nat.lt_succ_self _
  | case4 c cs _ _ ih =>
      obtain ⟨⟨t, r⟩, ht, he⟩ := Option.map_eq_some_iff.1 h
      cases he
      have := ih ht
      simp only [List.length_cons]
      omega

/-- The text after a run of a character. -/
def afterRun (c : Char) (cs : List Char) : List Char :=
  cs.dropWhile (· == c)

/-- The number of times that a character stands at the start of a text. -/
def runLength (c : Char) (cs : List Char) : Nat :=
  (cs.takeWhile (· == c)).length

theorem length_afterRun_le (c : Char) (cs : List Char) : (afterRun c cs).length ≤ cs.length :=
  (List.dropWhile_sublist _).length_le

/-- The item of a quoted text. Nothing between the quotes stands for a quote. -/
def ofQuoted (text : List Char) : PatternItem :=
  literal (if text.isEmpty then ['\''] else text)

/-- The items of a text, which ends the pattern `pattern`. -/
def parseFrom (pattern : List Char) : List Char → Except ConfigurationError (List PatternItem)
  | [] => .ok []
  | c :: cs =>
    if c = 'p' then
      match h : afterRun 'p' cs with
      | [] => .error (.danglingPad (String.ofList pattern))
      | d :: ds =>
        have : ds.length < cs.length := by
          have := length_afterRun_le 'p' cs
          rw [h, List.length_cons] at this
          omega
        if d.isAlpha then
          have := length_afterRun_le d ds
          (parseFrom pattern (afterRun d ds)).map fun items =>
            pad (runLength 'p' cs + 1) :: letters d (runLength d ds + 1) :: items
        else .error (.danglingPad (String.ofList pattern))
    else if c.isAlpha then
      have := length_afterRun_le c cs
      (parseFrom pattern (afterRun c cs)).map (letters c (runLength c cs + 1) :: ·)
    else if c = '\'' then
      match h : quoted? cs with
      | none => .error (.openLiteral (String.ofList pattern))
      | some (text, rest) =>
        have := length_lt_of_quoted? h
        (parseFrom pattern rest).map (ofQuoted text :: ·)
    else if c = '[' then (parseFrom pattern cs).map (optionalStart :: ·)
    else if c = ']' then (parseFrom pattern cs).map (optionalEnd :: ·)
    else if c = '\x7b' ∨ c = '\x7d' then .error (.reservedCharacter c)
    else (parseFrom pattern cs).map (literal [c] :: ·)
termination_by cs => cs.length
decreasing_by all_goals simp only [List.length_cons]; omega

def parseAll (pattern : List Char) : Except ConfigurationError (List PatternItem) :=
  parseFrom pattern pattern

end PatternItem

end DateTimeText
