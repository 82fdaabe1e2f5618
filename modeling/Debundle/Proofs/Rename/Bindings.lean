import Debundle.Proofs.Rename.Reference

/-!
# A renaming keeps the scopes

Only references are renamed.  The names that are bound by parameters, patterns and
declarations stay, for the renaming takes the roles from them before it comes to them, or
does not come to them at all.  So a name is bound at the same places before and after a
renaming.
-/

namespace Debundle

open Renaming Kind

namespace Value

variable {registry : Registry} {roles : Roles} {before after : Value} {slot : Slot}
  {step : Step} {position : Position} {name : String}

theorem RenamesTo.kind_eq (hrename : RenamesTo registry roles before after) :
    after.kind = before.kind := by
  cases hrename.renameStep <;> rfl

end Value

end Debundle
