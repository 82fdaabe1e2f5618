/-!
# Doubles as exact numbers

A syntax tree may hold numbers of the 64-bit binary format.  They are kept as the
exact number they stand for, so that every question about them (is it an
integer, which decimals round to it) is a question about natural numbers.
-/

namespace Debundle

/-- A number of the 64-bit binary format.  A finite one is
`± significand · 2 ^ exponent`. -/
inductive Double where
  | nan
  | infinite (negative : Bool)
  | finite (negative : Bool) (significand : Nat) (exponent : Int)
  deriving DecidableEq, Inhabited

namespace Double

/-- Reads the 64 bits of the interchange format: the sign, eleven bits of biased
exponent and fifty-two bits of fraction. -/
def ofBits (bits : UInt64) : Double :=
  let negative : Bool := bits.toNat / Nat.pow 2 63 == 1
  let biased : Nat := bits.toNat / Nat.pow 2 52 % Nat.pow 2 11
  let fraction : Nat := bits.toNat % Nat.pow 2 52
  if biased = 2047 then
    if fraction = 0 then .infinite negative else .nan
  else if biased = 0 then
    .finite negative fraction (-1074)
  else
    .finite negative (Nat.pow 2 52 + fraction) (biased - 1075)

/-- Both zeros, and nothing else. -/
def isZero : Double → Bool
  | .finite _ significand _ => significand == 0
  | _ => false

/-- The integer that the double is equal to, if there is one. -/
def toInt? : Double → Option Int
  | .finite negative significand exponent =>
    let magnitude? : Option Nat :=
      if 0 ≤ exponent then some (significand * Nat.pow 2 exponent.toNat)
      else if significand % Nat.pow 2 (-exponent).toNat = 0 then
        some (significand / Nat.pow 2 (-exponent).toNat)
      else none
    magnitude?.map fun magnitude => if negative then -(magnitude : Int) else magnitude
  | _ => none

end Double

end Debundle
