/-!
# Hexadecimal digits
-/

namespace Debundle

/-- `value` in lower case hexadecimal digits, with zeros in front up to `width`. -/
def hexDigits (width value : Nat) : List Char :=
  let digits := Nat.toDigits 16 value
  List.replicate (width - digits.length) '0' ++ digits

end Debundle
