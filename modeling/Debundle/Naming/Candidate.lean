import Debundle.Naming.Path
import Debundle.Naming.UniqueName

/-!
# Candidates for a module's name

A module is named after what it exports: each assignment to an export path proposes
the path of its right side.
-/

namespace Debundle.Value

/-- The names proposed by a node itself, in addition to those found before it. -/
def proposal (tag : String) (fields : Fields) (found : List Value) :
    Except Fault (List Value) := do
  let node := Value.node tag fields
  let pathAt (key : String) := (node.lookup key).elim (.ok (.text "")) Value.path
  if node.kind = .assignmentExpression then
    if isExportsPath (← (← pathAt "left").asPath) then
      let candidate ← (← pathAt "right").asKey .fixed
      return found ++ [uniqueName candidate found]
  return found

/-- The names proposed anywhere in a value, in the order of a walk, after those found
before it.  A name proposed again is numbered. -/
def exportNames : Value → List Value → Except Fault (List Value)
  | .array items, found => ofItems items found
  | .node tag fields, found => do ofFields fields (← proposal tag fields found)
  | _, found => .ok found
where
  ofItems : List Value → List Value → Except Fault (List Value)
    | [], found => .ok found
    | item :: rest, found => do ofItems rest (← item.exportNames found)
  ofFields : List (String × Value) → List Value → Except Fault (List Value)
    | [], found => .ok found
    | (_, value) :: rest, found => do ofFields rest (← value.exportNames found)

/-- The first name that a module proposes, or the empty one. -/
def primaryExport (module : Value) : Except Fault Value :=
  if module.isFunctionModule then
    match module.lookup "body" with
    | some body => do return (← body.exportNames []).headD (.text "")
    | none => .ok (.text "")
  else .ok (.text "")

end Debundle.Value
