import Debundle.Tree.Part

/-!
# Edits that share what they keep

A pass that changes a tree says of every value whether it was kept or changed, so
that a value is rebuilt only if something inside it changed.  "Changed" is a fact
about the pass, not about the outcome: a value replaced by an equal one is changed.
-/

namespace Debundle

/-- What a pass did to a value. -/
inductive Edit (α : Type) where
  | kept
  | changed (value : α)
  deriving DecidableEq

namespace Edit

variable {α β : Type}

def isKept : Edit α → Bool
  | .kept => true
  | .changed _ => false

/-- The value after the edit of `old`. -/
def apply (edit : Edit α) (old : α) : α :=
  match edit with
  | .kept => old
  | .changed value => value

def map (f : α → β) : Edit α → Edit β
  | .kept => .kept
  | .changed value => .changed (f value)

/-- The edit of a list from the edits of its head and its tail. -/
def cons (head : Edit α) (tail : Edit (List α)) (oldHead : α) (oldTail : List α) :
    Edit (List α) :=
  match head, tail with
  | .kept, .kept => .kept
  | head, tail => .changed (head.apply oldHead :: tail.apply oldTail)

end Edit

/-- The name that no field of a changed node may have. -/
def reservedKey : String := "self"

/-- The edit of fields from the edits of the first field and of the others. -/
def Edit.consField (head : Edit Value) (tail : Edit Fields) (key : String) (old : Value)
    (rest : Fields) : Except Fault (Edit Fields) :=
  if key = reservedKey ∧ head.isKept = false then .error (.reservedField "replace" key)
  else .ok (Edit.cons (head.map fun value => (key, value)) tail (key, old) rest)

namespace Value

/-- Edits every item of a list. -/
def editItems (edit : Value → Except Fault (Edit Value)) :
    List Value → Except Fault (Edit (List Value))
  | [] => .ok .kept
  | item :: rest => do
    let head ← edit item
    let tail ← editItems edit rest
    return head.cons tail item rest

/-- Edits the children among the fields of a node, except those in `skip`. -/
def editFields (edit : Value → Except Fault (Edit Value)) (skip : List String) :
    Fields → Except Fault (Edit Fields)
  | [] => .ok .kept
  | (key, value) :: rest => do
    let head ← if skip.contains key || !value.isBranch then pure .kept else edit value
    let tail ← editFields edit skip rest
    head.consField tail key value rest

/-- Edits the children of a value.  A value none of whose children changed is kept. -/
def mapChildren (value : Value) (edit : Value → Except Fault (Edit Value))
    (skip : List String) : Except Fault (Edit Value) :=
  match value with
  | .array items => do return (← editItems edit items).map .array
  | .node tag fields => do return (← editFields edit skip fields).map (.node tag)
  | _ => .ok .kept

/-- A new node.  Two names are not free for its fields. -/
def make (tag : String) (fields : List (String × Value)) : Except Fault Value :=
  match fields.find? fun (key, _) => key == "cls" || key == "type" with
  | some (key, _) => .error (.reservedField "make" key)
  | none => .ok (.node tag (Fields.ofList fields))

/-- Gives fields of a node new values.  Fields that it does not have yet are put at the
end; no changes at all keep the node. -/
def withFields (value : Value) (changes : List (String × Value)) :
    Except Fault (Edit Value) :=
  match value with
  | .node tag fields =>
    if changes.isEmpty then .ok .kept
    else if changes.any fun (key, _) => key == reservedKey then
      .error (.reservedField "replace" reservedKey)
    else
      .ok (.changed (.node tag
        (changes.foldl (fun fields (key, held) => Fields.set fields key held) fields)))
  | value => .error (.noFields value.shape)

end Value

end Debundle
