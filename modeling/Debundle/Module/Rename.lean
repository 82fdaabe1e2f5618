import Debundle.Module.Role
import Debundle.Naming.Registry
import Debundle.Scope
import Debundle.Tree.Edit

/-!
# Renaming module parameters

Inside a module, references to its parameters get the names of their roles, unless a
scope on the way declares the name anew; calls of `require` with the id of a known
module get the path of that module's file.

What happens at a node is decided by a `Plan`, from the node alone and the roles that
hold around it.  The renaming carries the plans out.
-/

namespace Debundle

/-- What a renaming did. -/
structure Tally where
  /-- The number of identifiers that were renamed. -/
  renamed : Nat := 0
  /-- The number of `require` calls that were given a path. -/
  rewritten : Nat := 0
  /-- The arguments of the `require` calls whose module is not known, in order. -/
  unresolved : List Value := []

namespace Tally

def append (left right : Tally) : Tally where
  renamed := left.renamed + right.renamed
  rewritten := left.rewritten + right.rewritten
  unresolved := left.unresolved ++ right.unresolved

instance : Append Tally := ⟨append⟩

end Tally

/-- What a renaming does at a node. -/
inductive Plan where
  /-- The node stays as it is, with everything inside it. -/
  | keep
  /-- The node is a reference to a parameter of this role. -/
  | refer (role : Role)
  /-- The renaming goes on inside the fields that `enters` admits, with the roles that
  hold there.  If `arguments` are given they take the place of that field. -/
  | enter (roles : Roles) (enters : String → Bool) (arguments : Option Value) (tally : Tally)

/-- All fields but one. -/
def allBut (key : String) : String → Bool :=
  fun other => other != key

/-- The argument of a `require` call for the module of this name. -/
def requirePath (name : Value) : Value :=
  .node "Literal" [("value", .text ("./" ++ name.display))]

namespace Plan

/-- The call's only argument, if the call is one of `require` with a literal. -/
def requireArgument? (roles : Roles) (call : Value) : Except Fault (Option Value) := do
  let callee := (call.lookup "callee").getD .null
  let role? := match callee.lookup "name" with
    | some (.text name) => roles.role? name
    | _ => none
  if callee.kind ≠ .identifier || role? ≠ some .require then return none
  match (call.lookup "arguments").filter Value.isTruthy with
  | none => return none
  | some arguments =>
    if (← arguments.length) ≠ 1 then return none
    let argument ← arguments.item 0
    if argument.kind ≠ .literal then return none
    return some ((argument.lookup "value").getD .null)

/-- A call of `require` is pointed at the file of the module. -/
def ofCall (registry : Registry) (roles : Roles) (call : Value) : Except Fault Plan := do
  match ← requireArgument? roles call with
  | none => return .enter roles (allBut "params") none {}
  | some id =>
    match ← registry.resolve id with
    | some name =>
      return .enter roles (allBut "params") (some (.array [requirePath name]))
        { rewritten := 1 }
    | none => return .enter roles (allBut "params") none { unresolved := [id] }

/-- The key of a property is no reference, unless it is computed.  Of a shorthand only
the value is one. -/
def ofKeyed (roles : Roles) (property : Value) : Plan :=
  let value := (property.lookup "value").getD .null
  if property.flag "computed" then .enter roles (allBut "params") none {}
  else if property.flag "shorthand" && value.kind == .identifier then
    .enter roles (fun key => key == "value") none {}
  else .enter roles (allBut "key") none {}

/-- What happens at a node, where `roles` hold. -/
def ofNode (registry : Registry) (roles : Roles) (node : Value) : Except Fault Plan :=
  match node.kind with
  | .identifier =>
    match node.lookup "name" with
    | some (.text name) => .ok ((roles.role? name).elim .keep .refer)
    | _ => .ok .keep
  | .callExpression => ofCall registry roles node
  | .functionExpression | .functionDeclaration | .arrowFunctionExpression => do
    return .enter (← roles.without (← node.paramNames)) (allBut "params") none {}
  | .catchClause => do
    return .enter (← roles.without (← node.boundNamesAt "param")) (allBut "param") none {}
  | .memberExpression =>
    if node.flag "computed" then .ok (.enter roles (allBut "params") none {})
    else .ok (.enter roles (allBut "property") none {})
  | .property | .methodDefinition => .ok (ofKeyed roles node)
  | .labeledStatement | .breakStatement | .continueStatement =>
    .ok (.enter roles (allBut "label") none {})
  | .metaProperty => .ok .keep
  | _ => .ok (.enter roles (allBut "params") none {})

end Plan

namespace Value

/-- Renames the parameters in a value in which `roles` hold.  Without roles nothing is
looked at; a list of statements declares the names that are hoisted out of it. -/
def rename (registry : Registry) (roles : Roles) : Value → Except Fault (Edit Value × Tally)
  | .array items =>
    if roles.isEmpty then .ok (.kept, {})
    else do
      let inner ← roles.without (← hoistedNames (.array items))
      let (edit, tally) ← renameItems registry inner items
      return (edit.map .array, tally)
  | .node tag fields =>
    if roles.isEmpty then .ok (.kept, {})
    else do
      match ← Plan.ofNode registry roles (.node tag fields) with
      | .keep => return (.kept, {})
      | .refer role =>
        return (.changed (.node tag (Fields.set fields "name" (.text role.word))),
          { renamed := 1 })
      | .enter inner enters arguments own =>
        let (edit, tally) ← renameFields registry inner enters arguments fields
        return (edit.map (.node tag), own ++ tally)
  | _ => .ok (.kept, {})
where
  renameItems (registry : Registry) (roles : Roles) :
      List Value → Except Fault (Edit (List Value) × Tally)
    | [] => .ok (.kept, {})
    | item :: rest => do
      let (head, here) ← item.rename registry roles
      let (tail, below) ← renameItems registry roles rest
      return (head.cons tail item rest, here ++ below)
  renameFields (registry : Registry) (roles : Roles) (enters : String → Bool)
      (arguments : Option Value) :
      List (String × Value) → Except Fault (Edit Fields × Tally)
    | [] => .ok (.kept, {})
    | (key, value) :: rest => do
      let (head, here) ←
        match arguments.filter fun _ => key == "arguments" with
        | some replaced => pure (.changed replaced, {})
        | none => if enters key then value.rename registry roles else pure (.kept, {})
      let (tail, below) ← renameFields registry roles enters arguments rest
      return (← head.consField tail key value rest, here ++ below)

end Value

end Debundle
