import Debundle.Tree.Part

/-!
# Children and walks

The children of a node are the nodes and arrays in its fields, in field order; leaves
in fields are not visited.  All items of an array are its children.
-/

namespace Debundle.Value

/-- The children of a value under their names; an item of an array goes by its index.
The fields in `skip` are left out. -/
def children (value : Value) (skip : List String) : List (String × Value) :=
  match value with
  | .array items => items.zipIdx.map fun (item, index) => (toString index, item)
  | .node _ fields =>
    fields.filter fun (key, child) => !skip.contains key && child.isBranch
  | _ => []

/-- The values in the fields of a node that may hold nodes. -/
def branches (fields : Fields) : List Value :=
  (fields.map Prod.snd).filter isBranch

/-- All nodes of a tree, each before the nodes inside it, in the order of fields and
items. -/
def preorder : Value → List Value
  | .array items => ofItems items
  | .node tag fields => .node tag fields :: ofFields fields
  | _ => []
where
  ofItems : List Value → List Value
    | [] => []
    | item :: rest => item.preorder ++ ofItems rest
  ofFields : List (String × Value) → List Value
    | [] => []
    | (_, value) :: rest => value.preorder ++ ofFields rest

theorem itemsSize_append (front back : List Value) :
    size.itemsSize (front ++ back) = size.itemsSize front + size.itemsSize back := by
  induction front with
  | nil => simp [size.itemsSize]
  | cons head rest ih => simp only [List.cons_append, size.itemsSize, ih]; omega

theorem itemsSize_branches_le (fields : Fields) :
    size.itemsSize (branches fields) ≤ size.fieldsSize fields := by
  induction fields with
  | nil => simp [branches, size.itemsSize, size.fieldsSize]
  | cons entry rest ih =>
    obtain ⟨key, value⟩ := entry
    simp only [branches, List.map_cons, List.filter_cons, size.fieldsSize] at ih ⊢
    split
    · simp only [size.itemsSize]
      omega
    · omega

/-- The nodes met by a walk that keeps what is still to be visited on a stack, the next
value first. -/
def walkStack : List Value → List Value
  | [] => []
  | .node tag fields :: rest => .node tag fields :: walkStack (branches fields ++ rest)
  | .array items :: rest => walkStack (items ++ rest)
  | .null :: rest | .bool _ :: rest | .int _ :: rest | .float _ :: rest | .text _ :: rest
  | .mapping _ :: rest => walkStack rest
termination_by stack => size.itemsSize stack
decreasing_by
  · have := itemsSize_branches_le fields
    simp only [itemsSize_append, size.itemsSize, size]
    omega
  all_goals
    simp only [itemsSize_append, size.itemsSize, size]
    omega

/-- The nodes of a tree as a walk meets them. -/
def walk (value : Value) : List Value :=
  walkStack [value]

end Debundle.Value
