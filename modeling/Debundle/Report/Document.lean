import Debundle.Number.Text
import Debundle.Text.Hex
import Debundle.Tree.Value

/-!
# Documents

Structured reports are written as JSON documents: two spaces per level, one entry on a
line, fields in the order of their declaration, and only ASCII characters.
-/

namespace Debundle

/-- A JSON document. -/
inductive Document where
  | null
  | bool (value : Bool)
  | int (value : Int)
  | float (value : Double)
  | text (value : String)
  | list (items : List Document)
  | object (fields : List (String × Document))

namespace Document

/-- The document of a value.  The tag of a node is not part of it. -/
def ofValue : Value → Document
  | .null => .null
  | .bool value => .bool value
  | .int value => .int value
  | .float value => .float value
  | .text value => .text value
  | .array items => .list (ofItems items)
  | .mapping fields => .object (ofFields fields)
  | .node _ fields => .object (ofFields fields)
where
  ofItems : List Value → List Document
    | [] => []
    | item :: rest => ofValue item :: ofItems rest
  ofFields : List (String × Value) → List (String × Document)
    | [] => []
    | (key, value) :: rest => (key, ofValue value) :: ofFields rest

/-- The code units of a character beyond ASCII: one, or a pair of surrogates. -/
def escapeUnits (code : Nat) : List Char :=
  if code < 0x10000 then unit code
  else unit (0xd800 + (code - 0x10000) / 0x400) ++ unit (0xdc00 + (code - 0x10000) % 0x400)
where
  unit (value : Nat) : List Char := '\\' :: 'u' :: hexDigits 4 value

def encodeChar (char : Char) : List Char :=
  match char with
  | '"' => ['\\', '"']
  | '\\' => ['\\', '\\']
  | '\n' => ['\\', 'n']
  | '\r' => ['\\', 'r']
  | '\t' => ['\\', 't']
  | '\x08' => ['\\', 'b']
  | '\x0c' => ['\\', 'f']
  | char =>
    if 0x20 ≤ char.toNat ∧ char.toNat < 0x7f then [char] else escapeUnits char.toNat

def quoted (text : String) : String :=
  String.ofList ('"' :: (text.toList.flatMap encodeChar ++ ['"']))

/-- Doubles are written as in messages, but for the names of what is no finite number. -/
def floatText : Double → String
  | .nan => "NaN"
  | .infinite negative => if negative then "-Infinity" else "Infinity"
  | double => double.plainText

/-- The start of a line of the given level. -/
def lineStart (level : Nat) : String :=
  "\n" ++ String.ofList (List.replicate (2 * level) ' ')

/-- Entries between brackets, each on its own line. -/
def bracketed (opening closing : String) (level : Nat) (entries : List String) : String :=
  if entries.isEmpty then opening ++ closing
  else
    opening ++ lineStart (level + 1) ++ ("," ++ lineStart (level + 1)).intercalate entries
      ++ lineStart level ++ closing

/-- The text of a document that starts in a line of the given level. -/
def render (level : Nat) : Document → String
  | .null => "null"
  | .bool value => if value then "true" else "false"
  | .int value => toString value
  | .float value => floatText value
  | .text value => quoted value
  | .list items => bracketed "[" "]" level (renderItems (level + 1) items)
  | .object fields => bracketed "\x7b" "\x7d" level (renderFields (level + 1) fields)
where
  renderItems (level : Nat) : List Document → List String
    | [] => []
    | item :: rest => render level item :: renderItems level rest
  renderFields (level : Nat) : List (String × Document) → List String
    | [] => []
    | (key, value) :: rest =>
      (quoted key ++ ": " ++ render level value) :: renderFields level rest

end Document

end Debundle
