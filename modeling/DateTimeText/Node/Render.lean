import DateTimeText.Node.Print

/-!
# The text of a node

What a node writes, without a buffer: a text, or nothing if the value lacks something, or an error.
-/

namespace DateTimeText

def Instant.renderComponents (v : Components) : Except FormatError (Option (List Char)) :=
  match v.field .instantSeconds, v.field .nanoOfSecond with
  | some seconds, some nano =>
    match render seconds nano with
    | .ok text => .ok (some text)
    | .error e => .error (.print e)
  | _, _ => .ok none

namespace Node

/-- A text with a pad in front, up to a width. -/
def padText (width : Nat) (fill : Char) (text : List Char) :
    Except FormatError (Option (List Char)) :=
  if width < text.length then .error (.print (.padOverflow text.length width))
  else .ok (some (List.replicate (width - text.length) fill ++ text))

mutual

/-- The text of a node. `expand` gives the text of the nodes of a localized pattern. -/
def renderWith (expand : Node → Except FormatError (Option (List Char))) (s : Settings)
    (v : Components) : Node → Except FormatError (Option (List Char))
  | leaf l => l.render s v
  | mode _ => .ok (some [])
  | instant => Instant.renderComponents v
  | localized l =>
    match l.nodes s (s.printChronology v) with
    | .error e => .error e
    | .ok nodes => expand (group nodes false)
  | pad inner width fill =>
    match renderWith expand s v inner with
    | .ok (some text) => padText width fill text
    | other => other
  | group nodes optional =>
    match renderAllWith expand s v nodes with
    | .ok none => .ok (if optional then some [] else none)
    | other => other

/-- The texts of nodes, one after the other, or nothing if one of them has none. -/
def renderAllWith (expand : Node → Except FormatError (Option (List Char))) (s : Settings)
    (v : Components) : List Node → Except FormatError (Option (List Char))
  | [] => .ok (some [])
  | node :: nodes =>
    match renderWith expand s v node with
    | .ok (some text) =>
      match renderAllWith expand s v nodes with
      | .ok (some rest) => .ok (some (text ++ rest))
      | other => other
    | other => other

end

/-- The text of a node with localized patterns inside each other up to a depth. -/
def renderTo (s : Settings) (v : Components) :
    (depth : Nat) → Node → Except FormatError (Option (List Char))
  | 0 => renderWith (fun _ => .ok none) s v
  | depth + 1 => renderWith (renderTo s v depth) s v

/-- The text of a node. Patterns hold no localized patterns, so a depth of one is enough. -/
def render (s : Settings) (v : Components) (node : Node) :
    Except FormatError (Option (List Char)) :=
  renderTo s v 1 node

end Node

end DateTimeText
