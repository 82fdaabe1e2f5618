import Debundle.Number.Double

/-!
# Shortest decimals

The shortest decimal of a double is the one with the fewest digits among all
decimals that round to the double; among those the nearest, and of two nearest
ones the even one.  A decimal `digits · 10 ^ position` lies on the grid of its
position, and fewest digits means coarsest grid, so the search goes through the
grids from coarse to fine and looks only at the two neighbours of the double on
each.
-/

namespace Debundle

/-- The decimal `digits · 10 ^ position`. -/
structure Decimal where
  digits : Nat
  position : Int
  deriving DecidableEq

namespace Decimal

/-- The numbers that round to one double, scaled to a common denominator: from
`low / denominator` to `high / denominator` around `value / denominator`, the ends
included if `closed`. -/
structure Interval where
  low : Nat
  value : Nat
  high : Nat
  denominator : Nat
  closed : Bool

/-- The numbers that round to `significand · 2 ^ exponent`.  Below a power of two
the next double is only half as far away as above it. -/
def Interval.around (significand : Nat) (exponent : Int) : Interval :=
  let scale := Nat.pow 2 exponent.toNat
  let gap := if significand = Nat.pow 2 52 ∧ exponent > -1074 then 1 else 2
  { low := (4 * significand - gap) * scale
    value := 4 * significand * scale
    high := (4 * significand + 2) * scale
    denominator := 4 * Nat.pow 2 (-exponent).toNat
    closed := significand % 2 == 0 }

def Interval.holds (interval : Interval) (numerator : Nat) : Bool :=
  if interval.closed then interval.low ≤ numerator && numerator ≤ interval.high
  else interval.low < numerator && numerator < interval.high

/-- The nearest point of the grid of `position` that lies in the interval. -/
def Interval.nearest? (interval : Interval) (position : Int) : Option Nat :=
  let up := Nat.pow 10 (-position).toNat
  let scaled : Interval :=
    { interval with
      low := interval.low * up, value := interval.value * up, high := interval.high * up }
  let unit := interval.denominator * Nat.pow 10 position.toNat
  let below := scaled.value / unit
  let above := below + 1
  let rest := scaled.value % unit
  match decide (0 < below) && scaled.holds (below * unit), scaled.holds (above * unit) with
  | true, true =>
    if 2 * rest < unit then some below
    else if unit < 2 * rest then some above
    else if below % 2 = 0 then some below
    else some above
  | true, false => some below
  | false, true => some above
  | false, false => none

/-- The coarsest grid that a double can need, as a power of ten. -/
def coarsest : Nat := 310

/-- All grids that a double can need: the finest is `10 ^ -342`, seventeen digits of
the smallest double. -/
def gridCount : Nat := 653

/-- The shortest decimal of `significand · 2 ^ exponent`. -/
def shortest (significand : Nat) (exponent : Int) : Decimal :=
  let interval := Interval.around significand exponent
  let found := (List.range gridCount).findSome? fun (step : Nat) =>
    let position : Int := (coarsest : Int) - step
    (interval.nearest? position).map fun digits => (⟨digits, position⟩ : Decimal)
  found.getD ⟨0, 0⟩

end Decimal

end Debundle
