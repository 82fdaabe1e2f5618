import Debundle.Tree.Key
import Debundle.Tree.Kind
import Debundle.Tree.Part

/-!
# Names in a tree

The name of an identifier is a text in every tree that a parser makes, but nothing in a
tree forces it to be one.
-/

namespace Debundle.Value

/-- The name of an identifier. -/
def name (value : Value) : Except Fault Value := do
  return (← value.require "name").value

/-- A function literal that has a body. -/
def isFunctionModule (value : Value) : Bool :=
  value.isFunctionLiteral && (value.given? "body").isSome

end Debundle.Value
