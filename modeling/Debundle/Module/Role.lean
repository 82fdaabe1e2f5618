import Debundle.Entries
import Debundle.Tree.Inspect
import Debundle.Tree.Name

/-!
# Roles of module parameters

The function around a module is called with the module object, its exports and the
`require` function, in this order.  What the parameters are called inside the module
is up to whoever made the bundle.
-/

namespace Debundle

inductive Role where
  | module | exports | require
  deriving DecidableEq

/-- The name that a parameter of this role should have. -/
def Role.word : Role → String
  | .module => "module"
  | .exports => "exports"
  | .require => "require"

/-- The roles of the parameters, in order. -/
def Role.all : List Role := [.module, .exports, .require]

/-- Which names stand for which roles. -/
structure Roles where
  entries : List (Value × Role) := []

namespace Roles

def isEmpty (roles : Roles) : Bool :=
  roles.entries.isEmpty

/-- The role of a name that a reference may have.  Only texts are names of references. -/
def role? (roles : Roles) (name : String) : Option Role :=
  roles.entries.lookup (.text name)

/-- The role that is entered under a name. -/
def role (roles : Roles) (name : Value) : Except Fault Role :=
  match roles.entries.lookup name with
  | some role => .ok role
  | none => .error (.missingEntry name.inspect)

/-- The roles of the first parameters.  Only plain identifiers get one; of two parameters
of one name the later counts. -/
def ofParams (params : List Value) : Except Fault Roles := do
  let entries ← (Role.all.zip params).foldlM (fun entries (role, param) => do
    if param.kind = .identifier then
      return Entries.put entries (← (← param.name).asKey .fixed) role
    return entries) []
  return ⟨entries⟩

/-- The roles that are left where `names` are declared anew. -/
def without (roles : Roles) (names : List Value) : Except Fault Roles := do
  let names ← names.mapM (Value.asKey .fixed)
  return ⟨roles.entries.filter fun (name, _) => !names.contains name⟩

end Roles

end Debundle
