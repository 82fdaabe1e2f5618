import Debundle.Tree.Fault

/-!
# Values as keys

Names are compared and looked up in tables, and a name may be any value.  Two values
are the same if they have the same content: numbers by what they stand for, collections
part by part, records in any order of their fields.
-/

namespace Debundle.Value

/-- Whether two values have the same content. -/
def same : Value → Value → Bool
  | .null, .null => true
  | .text left, .text right => left == right
  | .array left, .array right => sameItems left right
  | .mapping left, .mapping right => left.length == right.length && sameFields left right
  | .node tag left, .node tag' right =>
    tag == tag' && left.length == right.length && sameFields left right
  | left, right =>
    match left.number?, right.number? with
    | some left, some right => left.same right
    | _, _ => false
where
  sameItems : List Value → List Value → Bool
    | [], [] => true
    | item :: rest, item' :: rest' => item.same item' && sameItems rest rest'
    | _, _ => false
  sameFields : List (String × Value) → List (String × Value) → Bool
    | [], _ => true
    | (key, value) :: rest, others =>
      (match others.lookup key with
        | some other => value.same other
        | none => false)
      && sameFields rest others

instance : BEq Value := ⟨same⟩

/-- Whether a value of a tree can be looked up in a table: records cannot, nor arrays
that hold some. -/
def isKey : Value → Bool
  | .array items => areKeys items
  | .mapping _ | .node .. => false
  | _ => true
where
  areKeys : List Value → Bool
    | [] => true
    | item :: rest => item.isKey && areKeys rest

/-- A value that is looked up in a table.  Loose collections cannot be. -/
def asKey (form : Form) (value : Value) : Except Fault Value :=
  match form, value with
  | .loose, .array _ => .error (.notAKey .list)
  | .loose, .mapping _ => .error (.notAKey .record)
  | _, value => if value.isKey then .ok value else .error (.notAKey .mapping)

end Debundle.Value
