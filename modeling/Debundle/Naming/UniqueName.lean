import Debundle.Tree.Inspect
import Debundle.Tree.Key

/-!
# Unique names

A name that is taken already gets a number: `Foo`, `Foo__1`, `Foo__2`, and so on.
-/

namespace Debundle

/-- The `index`-th way to spell a name. -/
def numberedName (base : Value) (index : Nat) : Value :=
  if index = 0 then base else .text (base.display ++ "__" ++ toString index)

/-- The first spelling of `base` that is not taken.  Among one more spelling than there
are taken names one is free. -/
def uniqueName (base : Value) (taken : List Value) : Value :=
  let free? := (List.range (taken.length + 1)).find? fun index =>
    !taken.contains (numberedName base index)
  numberedName base (free?.getD 0)

end Debundle
