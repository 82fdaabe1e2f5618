import Debundle.Number.Rounding

/-!
# Numbers

A number is an integer or a double.  Integers are exact; as soon as a double takes part
in a sum, the sum is a double.  Two numbers are the same if they stand for the same
point of the number line, whichever kind they are.
-/

namespace Debundle

namespace Double

/-- The integer `value` such that the double is `value · 2 ^ place`, for a place that
no digit of the double is below. -/
def scaled (negative : Bool) (significand : Nat) (exponent place : Int) : Int :=
  let magnitude : Int := significand * Nat.pow 2 (exponent - place).toNat
  if negative then -magnitude else magnitude

/-- The sum of two doubles.  A sum of zero is negative only if both are. -/
def add : Double → Double → Double
  | .nan, _ | _, .nan => .nan
  | .infinite left, .infinite right => if left = right then .infinite left else .nan
  | .infinite left, .finite .. => .infinite left
  | .finite .., .infinite right => .infinite right
  | .finite left significand exponent, .finite right significand' exponent' =>
    let place := min exponent exponent'
    let sum := scaled left significand exponent place + scaled right significand' exponent' place
    if sum = 0 then .finite (left && right) 0 lowestPlace
    else round (sum < 0) sum.natAbs place

/-- Whether two doubles are the same number.  The two zeros are, and what is no number
is not the same as anything. -/
def same : Double → Double → Bool
  | .nan, _ => false
  | left, right => left == right || (left.isZero && right.isZero)

end Double

/-- An integer or a double. -/
inductive Number where
  | int (value : Int)
  | float (value : Double)

namespace Number

/-- The double that stands for a number, if there is one. -/
def toDouble? : Number → Option Double
  | .int value => Double.ofInt? value
  | .float value => some value

/-- The sum of two numbers.  There is none if an integer beyond all doubles meets a
double. -/
def add? : Number → Number → Option Number
  | .int left, .int right => some (.int (left + right))
  | left, right => do return .float ((← left.toDouble?).add (← right.toDouble?))

def same : Number → Number → Bool
  | .int left, .int right => left == right
  | .float left, .float right => left.same right
  | .int left, .float right => right.toInt? == some left
  | .float left, .int right => left.toInt? == some right

end Number

end Debundle
