import Debundle.Tree.Kind
import Debundle.Tree.Part

/-!
# The wrapper call

A bundle is a call of one function with the array of its modules:
`(function (modules) {...})([...])`.
-/

namespace Debundle.Value

/-- The length of a list in a field; a field that does not count as present stands for
the empty list. -/
def lengthAt (value : Value) (key : String) : Except Fault Nat :=
  match (value.lookup key).filter isTruthy with
  | some list => list.length
  | none => .ok 0

/-- Whether a value is a call of a function literal of one parameter with one array. -/
def isWrapper (value : Value) : Except Fault Bool := do
  if value.kind ≠ .callExpression then return false
  match value.lookup "callee" with
  | none => return false
  | some callee =>
    if !callee.isFunctionLiteral then return false
    if (← callee.lengthAt "params") ≠ 1 then return false
    if (← value.lengthAt "arguments") ≠ 1 then return false
    let arguments ← value.require "arguments"
    return (← arguments.value.item 0).kind == .arrayExpression

/-- The elements of the array that a wrapper is called with, or of the array itself. -/
def moduleArray (value : Value) : Except Fault Value := do
  let array ←
    if value.kind = .arrayExpression then pure value
    else do
      let arguments ← value.require "arguments"
      let array ← arguments.value.item 0
      array.asRecord
      pure array
  return ((array.lookup "elements").filter isTruthy).getD (.array [])

/-- The number of module slots of a wrapper. -/
def moduleCount (value : Value) : Except Fault Nat := do
  (← value.moduleArray).length

/-- The first find in a list. -/
def findFirst? {α β : Type} (find : α → Except Fault (Option β)) :
    List α → Except Fault (Option β)
  | [] => .ok none
  | item :: rest => do
    match ← find item with
    | some found => return some found
    | none => findFirst? find rest

/-- The first wrapper in a value.  A call that is no wrapper is searched only in its
callee, a signed expression and a statement in what they hold, any other node in its
body. -/
def findWrapper? (value : Value) : Except Fault (Option Value) :=
  match value.kind with
  | .callExpression => do
    if ← value.isWrapper then
      let _ ← value.moduleCount
      return some value
    match value.part? "callee" with
    | some callee => callee.value.findWrapper?
    | none => return none
  | .unaryExpression =>
    match value.part? "argument" with
    | some argument => argument.value.findWrapper?
    | none => .ok none
  | .expressionStatement =>
    match value.part? "expression" with
    | some expression => expression.value.findWrapper?
    | none => .ok none
  | _ =>
    match value.isNode, value.part? "body" with
    | true, some body =>
      match body.value with
      | .array _ => do findFirst? (fun item => item.value.findWrapper?) (← body.elements)
      | .node .. =>
        if body.value.kind = .blockStatement then body.value.findWrapper? else .ok none
      | _ => .ok none
    | _, _ => .ok none
termination_by value.size
decreasing_by all_goals exact Part.smaller _

end Debundle.Value
