import Debundle.Tree.Inspect

/-!
# Putting texts together

Source text is put together from pieces that are texts, unless a name in the tree is
none.  Each way to put pieces together says for itself what it does with other values:
a piece that is shown inside a text may be anything, a piece that is added to a text
has to be one.
-/

namespace Debundle

/-- Whether `text` starts with `start`. -/
def startsWith (text start : String) : Bool :=
  start.toList.isPrefixOf text.toList

namespace Value

/-- The sum of two values: texts and arrays are put behind each other, numbers are
added. -/
def add (left right : Value) : Except Fault Value :=
  match left, right with
  | .text left, .text right => .ok (.text (left ++ right))
  | .array left, .array right => .ok (.array (left ++ right))
  | .text _, right => .error (.notAppendable .text right.shape)
  | .array _, right => .error (.notAppendable .array right.shape)
  | left, right =>
    match left.number?, right.number? with
    | some left, some right =>
      match left.add? right with
      | some sum => .ok (ofNumber sum)
      | none => .error .integerTooLarge
    | _, _ => .error (.notAddable left.shape right.shape)

/-- The text of a value that is put behind other text. -/
def asAppended : Value → Except Fault String
  | .text value => .ok value
  | value => .error (.notAppendable .text value.shape)

/-- The text of a value of which the start counts. -/
def asStarting : Value → Except Fault String
  | .text value => .ok value
  | value => .error (.noStart value.shape)

/-- The text of a value of which the end counts. -/
def asEnding : Value → Except Fault String
  | .text value => .ok value
  | value => .error (.noEnd value.shape)

/-- Makes a value longer by a text. -/
def extend (value : Value) (text : String) : Except Fault Value :=
  match value with
  | .text front => .ok (.text (front ++ text))
  | .array _ => .error (.notAppendable .array .text)
  | value => .error (.notExtendable value.shape)

/-- The text of the piece at `index` of pieces to be joined. -/
def asPiece (index : Nat) : Value → Except Fault String
  | .text value => .ok value
  | value => .error (.notJoinable index value.shape)

end Value

/-- Joins texts.  A piece that is no text is refused, with its place among them. -/
def joined (separator : String) (pieces : List Value) : Except Fault String := do
  let texts ← pieces.zipIdx.mapM fun (piece, index) => piece.asPiece index
  return separator.intercalate texts

end Debundle
