import Debundle.Number.Text
import Debundle.Script.StringLiteral
import Debundle.Tree.Fault
import Debundle.Tree.Inspect

/-!
# Literals

The source text of the value of a literal.
-/

namespace Debundle

/-- The text of a number.  Truth values are numbers too, under their own names; integers
beyond all doubles are refused. -/
def numberText (form : Form) : Value → Except Fault String
  | .bool value => .ok (if value then "True" else "False")
  | .int value =>
    if value.natAbs < integerLimit then .ok (toString value) else .error .integerTooLarge
  | .float value => .ok value.scriptText
  | value => .error (.notANumber (value.shapeIn form))

/-- The source text of a literal that has the given value. -/
def literalText : Value → Except Fault String
  | .null => .ok "null"
  | .bool value => .ok (if value then "true" else "false")
  | .text value => .ok (StringLiteral.literal value)
  | .int value => numberText .fixed (.int value)
  | .float value => numberText .fixed (.float value)
  | value => .error (.badLiteral value.inspect)

end Debundle
