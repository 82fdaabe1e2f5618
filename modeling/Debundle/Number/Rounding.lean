import Debundle.Number.Double

/-!
# Rounding to doubles

The double that an exact number rounds to.  A double has at most fifty-three binary
digits, and none of them stands below the place of the smallest double.
-/

namespace Debundle

/-- The least integer that no double is near enough to stand for it: halfway between
the greatest double and the power of two above it. -/
def integerLimit : Nat := Nat.pow 2 1024 - Nat.pow 2 970

/-- The quotient of `value` by `2 ^ places`, rounded to the nearest; a half goes to the
even neighbour. -/
def halveEven (value places : Nat) : Nat :=
  let unit := Nat.pow 2 places
  let below := value / unit
  let rest := 2 * (value % unit)
  if rest < unit then below
  else if unit < rest then below + 1
  else below + below % 2

namespace Double

/-- The place of the last binary digit of the smallest double. -/
def lowestPlace : Int := -1074

/-- The place of the last binary digit of the greatest double. -/
def highestPlace : Int := 971

/-- The double nearest to `± magnitude · 2 ^ exponent`; of two nearest ones the even
one.  What lies beyond the greatest double is infinite. -/
def round (negative : Bool) (magnitude : Nat) (exponent : Int) : Double :=
  if magnitude = 0 then .finite negative 0 lowestPlace
  else
    let place := max (exponent + magnitude.log2 - 52) lowestPlace
    let scale := Nat.pow 2 (exponent - place).toNat
    let digits := halveEven (magnitude * scale) (place - exponent).toNat
    let (digits, place) :=
      if digits = Nat.pow 2 53 then (Nat.pow 2 52, place + 1) else (digits, place)
    if highestPlace < place then .infinite negative else .finite negative digits place

/-- The double nearest to an integer, if there is one. -/
def ofInt? (value : Int) : Option Double :=
  if value.natAbs < integerLimit then some (round (value < 0) value.natAbs 0) else none

end Double

end Debundle
