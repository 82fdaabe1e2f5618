import Debundle.Tree.Inspect
import Debundle.Tree.Name

/-!
# Dotted paths

A member chain such as `module.exports` is written as one dotted path.  A path of
which one step is unknown has an empty step there.
-/

namespace Debundle

/-- The value of a literal as a property name. -/
def Value.keyText (form : Form) : Value → String
  | .null => "null"
  | .bool value => if value then "true" else "false"
  | .float value =>
    match value.toInt? with
    | some integer => toString integer
    | none => value.plainText
  | value => value.shown form true

/-- The least integer that has more digits than are written. -/
def writtenLimit : Nat := Nat.pow 10 numeralLimit

/-- The step of a path that a literal of this value stands for.  An integer with more
digits than are written stands for none. -/
def Value.literalStep (value : Value) : Except Fault Value :=
  match value with
  | .int integer =>
    if integer.natAbs < writtenLimit then .ok (.text (value.keyText .fixed))
    else .error .integerTooLong
  | value => .ok (.text (value.keyText .fixed))

/-- The dotted path of identifiers, literals, named functions and member chains; all
else has the empty path.  An index in brackets counts as a step, but only the name of
its owner is kept.  The path of a lone name is that name. -/
def Value.path (value : Value) : Except Fault Value :=
  match value.kind with
  | .functionExpression =>
    match value.lookup "id" with
    | some id => if id.kind = .identifier then id.name else .ok (.text "")
    | none => .ok (.text "")
  | .literal => ((value.lookup "value").getD .null).literalStep
  | .identifier => value.name
  | .memberExpression =>
    let head := match value.part? "object" with
      | none => .ok (.text "")
      | some owner =>
        if value.flag "computed" then
          if owner.value.kind = .identifier then owner.value.name else .ok (.text "")
        else owner.value.path
    let step := match value.part? "property" with
      | none => .ok (.text "")
      | some property => property.value.path
    do return .text ((← head).display ++ "." ++ (← step).display)
  | _ => .ok (.text "")
termination_by value.size
decreasing_by all_goals exact Part.smaller _

/-- The last step of an export path. -/
def exportsStep : List Char := "exports".toList

/-- Whether a path ends in `exports`: either it is nothing else, or something on one
line stands in front of the last point.  One line break at the end does not count. -/
def isExportsPath (path : String) : Bool :=
  let chars := path.toList
  matchesWhole chars || (chars.getLast? == some '\n' && matchesWhole chars.dropLast)
where
  matchesWhole (chars : List Char) : Bool :=
    chars == exportsStep ||
      (('.' :: exportsStep).isSuffixOf chars &&
        let owner := chars.take (chars.length - (exportsStep.length + 1))
        !owner.isEmpty && !owner.contains '\n')

/-- The text of a value that is taken for a path. -/
def Value.asPath : Value → Except Fault String
  | .text value => .ok value
  | value => .error (.pathNotText value.shape)

end Debundle
