import Debundle.Text.Blank
import Debundle.Text.Digit

/-!
# Integers as people write them

An integer may have blanks around it, a sign, decimal digits of any script, and single
underscores between digits.
-/

namespace Debundle.IntegerText

/-- Blanks of ASCII that may stand around an integer, and all blanks beyond ASCII. -/
def isMargin (char : Char) : Bool :=
  if char.toNat < 0x7f then char.toNat == 0x20 || (0x09 ≤ char.toNat && char.toNat ≤ 0x0d)
  else CharSet.blanks.contains char

def trim (chars : List Char) : List Char :=
  ((chars.dropWhile isMargin).reverse.dropWhile isMargin).reverse

/-- The values of digits with single underscores between them. -/
def digits? : List Char → Option (List Nat)
  | [] => none
  | [char] => (CharSet.decimalValue? char).map fun value => [value]
  | char :: '_' :: rest => do return (← CharSet.decimalValue? char) :: (← digits? rest)
  | char :: rest => do return (← CharSet.decimalValue? char) :: (← digits? rest)

/-- Reads a written integer. -/
def read? (text : String) : Option Int := do
  let chars := trim text.toList
  let (negative, numeral) := match chars with
    | '-' :: rest => (true, rest)
    | '+' :: rest => (false, rest)
    | rest => (false, rest)
  let digits ← digits? numeral
  if numeralLimit < digits.length then none
  let magnitude : Nat := digits.foldl (fun total digit => 10 * total + digit) 0
  return if negative then -(magnitude : Int) else magnitude

end Debundle.IntegerText
