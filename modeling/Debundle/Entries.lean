/-!
# Entries in order

Keys with values, in the order in which the keys were first put.
-/

namespace Debundle.Entries

variable {κ β : Type} [BEq κ]

/-- Gives `key` a value.  A key that is there already keeps its place, a new one goes to
the end. -/
def put : List (κ × β) → κ → β → List (κ × β)
  | [], key, value => [(key, value)]
  | (other, held) :: rest, key, value =>
    if other == key then (other, value) :: rest else (other, held) :: put rest key value

end Debundle.Entries
