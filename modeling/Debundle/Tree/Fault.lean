import Debundle.Text.Digit
import Debundle.Text.Quoted
import Debundle.Tree.Value

/-!
# Faults

What can go wrong when a pass reads a tree that is not what its node types promise.
Each fault is a cause; its category and its message are what reports and logs show.
-/

namespace Debundle

/-- Where a value stands.  The collections of a tree are `fixed`; a value that stands for
itself is made of `loose` ones, and messages tell the two apart. -/
inductive Form where
  | fixed | loose
  deriving DecidableEq

/-- What a value is, without its content. -/
inductive Shape where
  | null | bool | int | float | text | array | list | mapping | record | node
  deriving DecidableEq

def Value.shape : Value → Shape
  | .null => .null
  | .bool _ => .bool
  | .int _ => .int
  | .float _ => .float
  | .text _ => .text
  | .array _ => .array
  | .mapping _ => .mapping
  | .node .. => .node

def Value.shapeIn : Form → Value → Shape
  | .loose, .array _ => .list
  | .loose, .mapping _ => .record
  | _, value => value.shape

/-- The word for a shape in messages. -/
def Shape.word : Shape → String
  | .null => "NoneType"
  | .bool => "bool"
  | .int => "int"
  | .float => "float"
  | .text => "str"
  | .array => "tuple"
  | .list => "list"
  | .mapping => "mappingproxy"
  | .record => "dict"
  | .node => "Node"

inductive Fault where
  /-- The record has no such field. -/
  | missingField (key : String)
  /-- A record was asked for the item at a position. -/
  | missingPosition (position : Nat)
  /-- A value that is no record was asked for a field that may be missing. -/
  | noFields (shape : Shape)
  /-- A value that is no record was asked for a field that must be there. -/
  | notSubscriptable (shape : Shape)
  | notIterable (shape : Shape)
  | noLength (shape : Shape)
  /-- A pair was expected. -/
  | notUnpackable (shape : Shape)
  | tooFewValues (count : Nat)
  | tooManyValues
  /-- The bounds of a range of source text are no integers. -/
  | badRange
  | textIndexOutOfRange
  | arrayIndexOutOfRange
  /-- An operator is no text, so it cannot be told whether it is a word. -/
  | operatorNotText (shape : Shape)
  /-- It cannot be told how a value of this shape starts. -/
  | noStart (shape : Shape)
  /-- It cannot be told how a value of this shape ends. -/
  | noEnd (shape : Shape)
  /-- A path is no text. -/
  | pathNotText (shape : Shape)
  /-- A text or an array cannot be followed by a value of another shape. -/
  | notAppendable (front shape : Shape)
  /-- Values of these shapes have no sum. -/
  | notAddable (left right : Shape)
  /-- A value of this shape cannot be made longer by a text. -/
  | notExtendable (shape : Shape)
  /-- A value that has no fixed content was used as a key. -/
  | notAKey (shape : Shape)
  /-- A table has no entry under the key that is shown. -/
  | missingEntry (shown : String)
  /-- Of texts to be joined, the one at `index` is no text. -/
  | notJoinable (index : Nat) (shape : Shape)
  | notANumber (shape : Shape)
  | integerTooLarge
  /-- A numeral has more digits than are read. -/
  | tooManyDigits (count : Nat)
  /-- An integer has more digits than are written. -/
  | integerTooLong
  /-- A field of this name cannot be changed. -/
  | reservedField (operation key : String)
  /-- There is no rule to print a node of this tag, or a value of this shape. -/
  | noPrinter (what : String)
  /-- A literal holds a value that no literal can have. -/
  | badLiteral (shown : String)
  /-- A renderer given from outside refused. -/
  | refused (category message : String)
  deriving DecidableEq

namespace Fault

/-- The class of a fault in reports. -/
def category : Fault → String
  | .missingField _ | .missingPosition _ | .missingEntry _ => "KeyError"
  | .noFields _ | .operatorNotText _ | .noStart _ | .noEnd _ => "AttributeError"
  | .tooFewValues _ | .tooManyValues | .tooManyDigits _ | .integerTooLong => "ValueError"
  | .textIndexOutOfRange | .arrayIndexOutOfRange => "IndexError"
  | .integerTooLarge => "OverflowError"
  | .noPrinter _ | .badLiteral _ => "UnsupportedNodeError"
  | .refused category _ => category
  | _ => "TypeError"

def message : Fault → String
  | .missingField key => Quoted.quoted key
  | .missingPosition position => toString position
  | .missingEntry shown => shown
  | .noFields shape => lacks shape "get"
  | .notSubscriptable .text => "string indices must be integers, not 'str'"
  | .notSubscriptable .array => "tuple indices must be integers or slices, not str"
  | .notSubscriptable shape => "'" ++ shape.word ++ "' object is not subscriptable"
  | .notIterable shape => "'" ++ shape.word ++ "' object is not iterable"
  | .noLength shape => "object of type '" ++ shape.word ++ "' has no len()"
  | .notUnpackable shape => "cannot unpack non-iterable " ++ shape.word ++ " object"
  | .tooFewValues count =>
    "not enough values to unpack (expected 2, got " ++ toString count ++ ")"
  | .tooManyValues => "too many values to unpack (expected 2)"
  | .badRange => "slice indices must be integers or None or have an __index__ method"
  | .textIndexOutOfRange => "string index out of range"
  | .arrayIndexOutOfRange => "tuple index out of range"
  | .operatorNotText shape => lacks shape "isalpha"
  | .noStart shape => lacks shape "startswith"
  | .noEnd shape => lacks shape "endswith"
  | .pathNotText shape => "expected string or bytes-like object, got '" ++ shape.word ++ "'"
  | .notAppendable front shape =>
    "can only concatenate " ++ front.word ++ " (not \"" ++ shape.word ++ "\") to " ++ front.word
  | .notAddable left right => unsupported "+" left right
  | .notExtendable shape => unsupported "+=" shape .text
  | .notAKey shape => "unhashable type: '" ++ shape.word ++ "'"
  | .notJoinable index shape =>
    "sequence item " ++ toString index ++ ": expected str instance, " ++ shape.word ++ " found"
  | .notANumber shape => "must be real number, not " ++ shape.word
  | .integerTooLarge => "int too large to convert to float"
  | .tooManyDigits count => exceeds (": value has " ++ toString count ++ " digits")
  | .integerTooLong => exceeds ""
  | .reservedField operation key =>
    "Node." ++ operation ++ "() got multiple values for argument '" ++ key ++ "'"
  | .noPrinter what => "no printer for " ++ what ++ " node"
  | .badLiteral shown => "cannot render literal value " ++ shown
  | .refused _ message => message
where
  lacks (shape : Shape) (ability : String) : String :=
    "'" ++ shape.word ++ "' object has no attribute '" ++ ability ++ "'"
  exceeds (detail : String) : String :=
    "Exceeds the limit (" ++ toString numeralLimit ++ " digits) for integer string conversion"
      ++ detail ++ "; use sys.set_int_max_str_digits() to increase the limit"
  unsupported (sign : String) (left right : Shape) : String :=
    "unsupported operand type(s) for " ++ sign ++ ": '" ++ left.word ++ "' and '" ++ right.word
      ++ "'"

/-- A fault as reports show it: its class, then its message. -/
def summary (fault : Fault) : String :=
  fault.category ++ ": " ++ fault.message

end Fault

end Debundle
