import Debundle.Entries
import Debundle.Number.Sum

/-!
# Syntax tree values

A syntax tree is made of nodes with a type tag and named fields, of arrays, and of
leaves.  Trees come from outside, so nothing forces a field to hold what its node
type asks for; every pass decides for itself what it reads and what it refuses.
The order of the fields of a node is the order in which passes visit its children.
-/

namespace Debundle

/-- A syntax tree, or a part of one.  A `mapping` is a record without a type tag, such
as the value of a template element. -/
inductive Value where
  | null
  | bool (value : Bool)
  | int (value : Int)
  | float (value : Double)
  | text (value : String)
  | array (items : List Value)
  | mapping (fields : List (String × Value))
  | node (tag : String) (fields : List (String × Value))
  deriving Inhabited

/-- Named values in order.  No name is used twice. -/
abbrev Fields := List (String × Value)

namespace Fields

def get? (fields : Fields) (key : String) : Option Value :=
  fields.lookup key

/-- Gives `key` a new value in its place, or puts it at the end. -/
def set (fields : Fields) (key : String) (value : Value) : Fields :=
  Entries.put fields key value

def erase (fields : Fields) (key : String) : Fields :=
  fields.filter fun (name, _) => name ≠ key

def keys (fields : Fields) : List String :=
  fields.map Prod.fst

/-- Fields from names and values in order.  A name that comes again keeps its first
place and takes its last value. -/
def ofList (entries : List (String × Value)) : Fields :=
  entries.foldl (fun fields (key, value) => set fields key value) []

end Fields

namespace Value

/-- The number of values a value is made of. -/
def size : Value → Nat
  | .array items => 1 + itemsSize items
  | .mapping fields => 1 + fieldsSize fields
  | .node _ fields => 1 + fieldsSize fields
  | _ => 1
where
  itemsSize : List Value → Nat
    | [] => 0
    | item :: rest => item.size + itemsSize rest
  fieldsSize : List (String × Value) → Nat
    | [] => 0
    | (_, value) :: rest => value.size + fieldsSize rest

/-- The fields of a node or a mapping. -/
def fields? : Value → Option Fields
  | .mapping fields => some fields
  | .node _ fields => some fields
  | _ => none

def isNull : Value → Bool
  | .null => true
  | _ => false

def isNode : Value → Bool
  | .node .. => true
  | _ => false

/-- The number that a value is; truth values count as zero and one. -/
def number? : Value → Option Number
  | .bool value => some (.int (if value then 1 else 0))
  | .int value => some (.int value)
  | .float value => some (.float value)
  | _ => none

def ofNumber : Number → Value
  | .int value => .int value
  | .float value => .float value

/-- Nodes and arrays are what passes descend into; all else is a leaf. -/
def isBranch : Value → Bool
  | .node .. => true
  | .array _ => true
  | _ => false

/-- Whether a value counts as present where a flag or a list is asked for: zero, the
empty text and empty collections do not. -/
def isTruthy : Value → Bool
  | .null => false
  | .bool value => value
  | .int value => value != 0
  | .float value => !value.isZero
  | .text value => !value.isEmpty
  | .array items => !items.isEmpty
  | .mapping fields => !fields.isEmpty
  | .node .. => true

end Value

end Debundle
