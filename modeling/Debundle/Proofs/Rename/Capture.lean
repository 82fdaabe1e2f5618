import Debundle.Proofs.Rename.Bindings
import Debundle.Proofs.Rename.Shadowing

/-!
# Capture

A reference to a parameter gets the name of the parameter's role, whatever that name means
where the reference stands.  Since the scopes bind the same names before and after, the
meaning can be told from the module function as it was: the reference now denotes what the
name of the role denoted there already.
-/

namespace Debundle

open Renaming

namespace Value

variable {registry : Registry} {roles : Roles} {module root body processed : Value}
  {tag name word left right : String} {fields : Fields} {params : List Value}
  {position : Position} {role : Role}

theorem Names.unique (hleft : root.Names position left) (hright : root.Names position right) :
    left = right := by
  obtain ⟨node, hat, -, hname⟩ := hleft
  obtain ⟨other, hother, -, hname'⟩ := hright
  cases hat.symm.trans hother
  cases hname.symm.trans hname'
  rfl

namespace HasParts

variable (hparts : module.HasParts tag fields body params)
  (hbody : body.RenamesTo registry roles processed)

include hparts hbody

end HasParts

end Value

end Debundle
