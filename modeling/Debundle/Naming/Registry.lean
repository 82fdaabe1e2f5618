import Debundle.Entries
import Debundle.Naming.UniqueName
import Debundle.Tree.Fault

/-!
# Module names

The names given to the modules of a bundle.  Names taken from exports are kept apart
from each other; the names of modules without exports are made of their ids and are
not kept apart from the others.
-/

namespace Debundle

/-- The name of a module that exports nothing. -/
def fallbackName (id : Int) : String :=
  "module-" ++ toString id

structure Registry where
  /-- The modules' names, in the order in which ids were first seen. -/
  names : List (Int × Value) := []
  /-- The names taken from exports so far. -/
  claimed : List Value := []

namespace Registry

/-- The name that a module with this candidate gets.  An empty candidate names
nothing. -/
def nameFor (registry : Registry) (id : Int) (candidate : Value) : Value :=
  if candidate.isTruthy then uniqueName candidate registry.claimed
  else .text (fallbackName id)

/-- Names the module `id` after its candidate. -/
def claim (registry : Registry) (id : Int) (candidate : Value) : Registry :=
  let name := registry.nameFor id candidate
  { names := Entries.put registry.names id name
    claimed := if candidate.isTruthy then registry.claimed ++ [name] else registry.claimed }

def name? (registry : Registry) (id : Int) : Option Value :=
  registry.names.lookup id

end Registry

/-- The module id that the argument of a `require` call stands for.  Ids are also
written as doubles, and as texts in their canonical spelling. -/
def moduleIndex : Value → Except Fault (Option Int)
  | .int value => .ok (some value)
  | .float value => .ok value.toInt?
  | .text value =>
    let chars := value.toList
    if !chars.isEmpty && chars.all Char.isDigit then
      if numeralLimit < chars.length then .error (.tooManyDigits chars.length)
      else if chars.length = 1 || chars.head? != some '0' then
        .ok (some (Nat.ofDigitChars 10 chars 0))
      else .ok none
    else .ok none
  | _ => .ok none

/-- The name of the module that the argument of a `require` call stands for. -/
def Registry.resolve (registry : Registry) (argument : Value) :
    Except Fault (Option Value) := do
  return (← moduleIndex argument).bind registry.name?

end Debundle
