import Debundle.Tree.Name

/-!
# Scopes

The names that a pattern binds, and the names that are declared for a whole function:
`var` declarations and function declarations hold in all of the function they stand
in, however deep, while `let` and `const` declarations hold only in their block.
-/

namespace Debundle.Value

/-- The names bound by a parameter or by the target of a declaration. -/
def boundNames (pattern : Value) : Except Fault (List Value) :=
  match pattern.kind with
  | .identifier => do return [← pattern.name]
  | .assignmentPattern =>
    match pattern.part? "left" with
    | some target => target.value.boundNames
    | none => .ok []
  | .restElement =>
    match pattern.part? "argument" with
    | some target => target.value.boundNames
    | none => .ok []
  | .arrayPattern => do
    let elements ← pattern.listAt "elements"
    return (← elements.mapM fun element => element.value.boundNames).flatten
  | .objectPattern => do
    let properties ← pattern.listAt "properties"
    let names ← properties.mapM fun property =>
      if property.value.kind = .property then
        match property.value.part? "value" with
        | some target => target.value.boundNames
        | none => .ok []
      else property.value.boundNames
    return names.flatten
  | _ => .ok []
termination_by pattern.size
decreasing_by
  · exact target.smaller
  · exact target.smaller
  · exact element.smaller
  · exact Nat.lt_trans target.smaller property.smaller
  · exact property.smaller

/-- The names bound by the field `key` of a value; a missing field binds none. -/
def boundNamesAt (value : Value) (key : String) : Except Fault (List Value) :=
  match value.lookup key with
  | some pattern => pattern.boundNames
  | none => .ok []

/-- The names bound by the parameters of a function. -/
def paramNames (function : Value) : Except Fault (List Value) := do
  function.asRecord
  return (← (← function.listAt "params").mapM fun param => param.value.boundNames).flatten

/-- The names that a variable declaration declares for the whole function. -/
def declaredNames (declaration : Value) : Except Fault (List Value) :=
  match declaration.lookup "kind" with
  | some (.text "var") => do
    let names ← (← declaration.listAt "declarations").mapM fun declarator => do
      declarator.value.asRecord
      declarator.value.boundNamesAt "id"
    return names.flatten
  | _ => .ok []

/-- The names declared with function scope anywhere in a value.  A variable declaration
is not searched any further. -/
def hoistedNames : Value → Except Fault (List Value)
  | .array items => ofItems items
  | .node tag fields =>
    match Kind.ofTag tag with
    | .variableDeclaration => declaredNames (.node tag fields)
    | .functionDeclaration => do
      let own ← boundNamesAt (.node tag fields) "id"
      return own ++ (← ofFields fields)
    | _ => ofFields fields
  | _ => .ok []
where
  ofItems : List Value → Except Fault (List Value)
    | [] => .ok []
    | item :: rest => do
      let here ← item.hoistedNames
      return here ++ (← ofItems rest)
  ofFields : List (String × Value) → Except Fault (List Value)
    | [] => .ok []
    | (_, value) :: rest => do
      let here ← value.hoistedNames
      return here ++ (← ofFields rest)

end Debundle.Value
