import Debundle.Number.Shortest

/-!
# Numbers as text

Numbers are written in two dialects.  A *script* number is what stands in source
text: integers without a point, `NaN` and `Infinity` by name.  A *plain* number is
what stands in messages and logs: a double is told from an integer by its point or
its exponent.
-/

namespace Debundle

/-- Decimal notation of `decimal`, which is not zero: positional while the first
digit stands between the fourth place after the point and the sixteenth before it,
else with an exponent of at least two digits. -/
def Decimal.written (decimal : Decimal) : String :=
  let digits := Nat.toDigits 10 decimal.digits
  let point : Int := digits.length + decimal.position
  if -4 < point ∧ point ≤ 16 then
    if point ≤ 0 then
      "0." ++ String.ofList (List.replicate (-point).toNat '0' ++ digits)
    else if digits.length ≤ point then
      String.ofList (digits ++ List.replicate (point.toNat - digits.length) '0') ++ ".0"
    else
      String.ofList (digits.take point.toNat) ++ "." ++ String.ofList (digits.drop point.toNat)
  else
    let exponent := point - 1
    let size := Nat.toDigits 10 exponent.natAbs
    let mark := if exponent < 0 then "e-" else "e+"
    let fraction := if digits.length ≤ 1 then "" else "." ++ String.ofList (digits.drop 1)
    String.ofList (digits.take 1) ++ fraction ++ mark
      ++ String.ofList (List.replicate (2 - size.length) '0' ++ size)

namespace Double

/-- A double as it stands in messages: the shortest decimal that reads back. -/
def plainText : Double → String
  | .nan => "nan"
  | .infinite negative => if negative then "-inf" else "inf"
  | .finite negative significand exponent =>
    let sign := if negative then "-" else ""
    if significand = 0 then sign ++ "0.0"
    else sign ++ (Decimal.shortest significand exponent).written

/-- A double as it stands in source text.  Integers below `10 ^ 21` lose their point,
and zero its sign. -/
def scriptText (double : Double) : String :=
  match double with
  | .nan => "NaN"
  | .infinite negative => if negative then "-Infinity" else "Infinity"
  | .finite .. =>
    match double.toInt? with
    | some value => if value.natAbs < Nat.pow 10 21 then toString value else double.plainText
    | none => double.plainText

end Double

end Debundle
