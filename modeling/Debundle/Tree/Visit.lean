import Debundle.Tree.Edit
import Debundle.Tree.Kind

/-!
# Visits by rule

Traversals that are given by what to do at a node.  A visit collects, a
transformation edits; both go through the children of every node that their rule
does not stop at.  Leaves are met only as items of arrays.
-/

namespace Debundle

/-- What a visit collects. -/
structure Visitor (α : Type) where
  /-- What is collected at a node before its children, and whether to go on to them. -/
  atNode : String → Fields → List α × Bool
  atLeaf : Value → List α

namespace Value

/-- Everything that a visitor collects in a tree. -/
def visit {α : Type} (visitor : Visitor α) : Value → List α
  | .array items => visitItems visitor items
  | .node tag fields =>
    let (found, goesOn) := visitor.atNode tag fields
    if goesOn then found ++ visitFields visitor fields else found
  | leaf => visitor.atLeaf leaf
where
  visitItems {α : Type} (visitor : Visitor α) : List Value → List α
    | [] => []
    | item :: rest => visit visitor item ++ visitItems visitor rest
  visitFields {α : Type} (visitor : Visitor α) : List (String × Value) → List α
    | [] => []
    | (_, value) :: rest =>
      if value.isBranch then visit visitor value ++ visitFields visitor rest
      else visitFields visitor rest

/-- The outcome of a rule at a node: an edit of the node, or none if the rule leaves the
node to its children. -/
abbrev Rule := String → Fields → Option (Except Fault (Edit Value))

/-- Edits a tree by a rule, from the root down. -/
def transform (rule : Rule) : Value → Except Fault (Edit Value)
  | .array items => do return (← transformItems rule items).map .array
  | .node tag fields =>
    match rule tag fields with
    | some outcome => outcome
    | none => do return (← transformFields rule fields).map (.node tag)
  | _ => .ok .kept
where
  transformItems (rule : Rule) : List Value → Except Fault (Edit (List Value))
    | [] => .ok .kept
    | item :: rest => do
      let head ← transform rule item
      let tail ← transformItems rule rest
      return head.cons tail item rest
  transformFields (rule : Rule) : List (String × Value) → Except Fault (Edit Fields)
    | [] => .ok .kept
    | (key, value) :: rest => do
      let head ← transform rule value
      let tail ← transformFields rule rest
      head.consField tail key value rest

end Value

end Debundle
