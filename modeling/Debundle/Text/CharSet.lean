/-!
# Sets of characters

A property of characters that only a table can give is kept as the sorted list of
the ranges of code points that have it.  Long tables tell only how long the ranges and the
gaps between them are.
-/

namespace Debundle

/-- A set of characters, given by ranges of code points with both ends included. -/
structure CharSet where
  ranges : List (Nat × Nat)

namespace CharSet

/-- The ranges of runs of code points from `start` on, which lie by turns outside and inside
of the set. -/
def rangesFrom (start : Nat) : List Nat → List (Nat × Nat)
  | outside :: inside :: runs =>
    (start + outside, start + outside + inside - 1) :: rangesFrom (start + outside + inside) runs
  | _ => []

/-- A large set, given by the lengths of the runs of code points outside and inside of it. -/
def ofRuns (runs : List Nat) : CharSet where
  ranges := rangesFrom 0 runs

def contains (set : CharSet) (char : Char) : Bool :=
  set.ranges.any fun (first, last) => first ≤ char.toNat && char.toNat ≤ last

/-- A text that has a character, and whose characters all belong to the set. -/
def spells (set : CharSet) (text : String) : Bool :=
  !text.isEmpty && text.toList.all set.contains

end CharSet

end Debundle
