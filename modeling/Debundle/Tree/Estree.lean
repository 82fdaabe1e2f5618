import Debundle.Tree.Value

/-!
# Trees from parser output

A parser hands over a syntax tree as nested mappings, in which the entry `type` of a
mapping is the type tag of a node.  The passes work on nodes, so the tags are taken
out of the mappings once, before anything else happens.
-/

namespace Debundle.Value

/-- The node that the entries of a mapping describe.  A mapping whose `type` is no text
describes none, and only loses that entry. -/
def ofEntries (entries : Fields) : Value :=
  match entries.get? "type" with
  | some (.text tag) => .node tag (entries.erase "type")
  | _ => .mapping (entries.erase "type")

/-- Turns the mappings of parser output into nodes.  What is a node already stays as it
is. -/
def ofEstree : Value → Value
  | .array items => .array (ofItems items)
  | .mapping fields => ofEntries (ofFields fields)
  | value => value
where
  ofItems : List Value → List Value
    | [] => []
    | item :: rest => ofEstree item :: ofItems rest
  ofFields : List (String × Value) → List (String × Value)
    | [] => []
    | (key, value) :: rest => (key, ofEstree value) :: ofFields rest

end Debundle.Value
