import Debundle.Number.Text
import Debundle.Text.Quoted
import Debundle.Tree.Fault

/-!
# Values in messages

How a value is shown in messages and logs, and where a text is asked for.  A text is
shown in quotes when it is part of something larger, or when the message asks for it,
and bare otherwise.  Collections are shown by their brackets; a mapping of a tree has
its kind in front unless it is shown bare.
-/

namespace Debundle.Value

/-- The parts of a collection in its brackets. -/
def enclosed (opening closing : String) (parts : List String) : String :=
  opening ++ ", ".intercalate parts ++ closing

/-- The items of an array in brackets.  One item of a fixed array is told from a value
in parentheses by a comma. -/
def enclosedItems : Form → List String → String
  | .loose, parts => enclosed "[" "]" parts
  | .fixed, [part] => "(" ++ part ++ ",)"
  | .fixed, parts => enclosed "(" ")" parts

/-- The fields of a mapping in brackets. -/
def enclosedFields (form : Form) (isBare : Bool) (parts : List String) : String :=
  let shown := enclosed "\x7b" "\x7d" parts
  if form = .loose || isBare then shown else "mappingproxy(" ++ shown ++ ")"

/-- Shows a value.  What it is made of is never shown bare.  Of a node only its tag and
its name are shown. -/
def shown (form : Form) (isBare : Bool) : Value → String
  | .null => "None"
  | .bool value => if value then "True" else "False"
  | .int value => toString value
  | .float value => value.plainText
  | .text value => if isBare then value else Quoted.quoted value
  | .array items => enclosedItems form (shownItems form items)
  | .mapping fields => enclosedFields form isBare (shownFields form fields)
  | .node tag fields =>
    match shownName fields with
    | some name => "Node(" ++ tag ++ ":" ++ name ++ ")"
    | none => "Node(" ++ tag ++ ")"
where
  shownItems (form : Form) : List Value → List String
    | [] => []
    | item :: rest => item.shown form false :: shownItems form rest
  shownFields (form : Form) : List (String × Value) → List String
    | [] => []
    | (key, value) :: rest =>
      (Quoted.quoted key ++ ": " ++ value.shown form false) :: shownFields form rest
  shownName : List (String × Value) → Option String
    | [] => none
    | (key, value) :: rest =>
      if key = "name" then if value.isNull then none else some (value.shown .fixed true)
      else shownName rest

/-- Shows a value of a tree with its texts in quotes. -/
def inspect (value : Value) : String :=
  value.shown .fixed false

/-- Shows a value of a tree where a text is asked for. -/
def display (value : Value) : String :=
  value.shown .fixed true

end Debundle.Value
