import DateTimeText.Node.Leaf

/-!
# Formats as trees

A format is a tree of nodes. Its inner nodes are groups, which may be optional, and nodes padded to
a width; the others are leaves, changes of the mode of reading, instants and localized patterns.
-/

namespace DateTimeText

/-- A pattern for a date style and a time style, to be looked up when it is used. -/
structure LocalizedText where
  date : Option FormatStyle
  time : Option FormatStyle
  texts : TextSource

def LocalizedText.describe (l : LocalizedText) : String :=
  "Localized(" ++ (l.date.map (·.name)).getD "" ++ "," ++ (l.time.map (·.name)).getD "" ++ ")"

/-- A node of a format. -/
inductive Node
  | leaf (leaf : Leaf)
  | mode (change : ModeChange)
  | instant
  | localized (text : LocalizedText)
  | pad (inner : Node) (width : Nat) (fill : Char)
  | group (nodes : List Node) (optional : Bool)

namespace Node

def numeral (n : Numeral) : Node := leaf (.numeral n)

def literal (text : List Char) : Node := leaf (.literal text)

/-- What is said of the fill of a padded node. -/
def describeFill (fill : Char) : List Char :=
  if fill = ' ' then [] else [',', '\'', fill, '\'']

mutual

def describe : Node → List Char
  | leaf l => l.describe
  | mode change => change.describe.toList
  | instant => "Instant()".toList
  | localized l => l.describe.toList
  | pad inner width fill =>
    "Pad(".toList ++ describe inner ++ ',' :: decimal width ++ describeFill fill ++ [')']
  | group nodes optional =>
    (if optional then '[' else '(') :: describeAll nodes ++ [if optional then ']' else ')']

def describeAll : List Node → List Char
  | [] => []
  | node :: nodes => describe node ++ describeAll nodes

end

end Node

end DateTimeText
