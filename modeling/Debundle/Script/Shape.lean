import Debundle.Tree.Kind
import Debundle.Tree.Part

/-!
# Where parentheses and braces are needed

Two questions about the shape of a tree that decide about parentheses and braces.
-/

namespace Debundle.Value

/-- Whether the leftmost chain of a callee goes through a call, which `new` would take
for its own arguments. -/
def containsCall (value : Value) : Bool :=
  match value.kind with
  | .callExpression => true
  | .memberExpression =>
    match value.part? "object" with
    | some owner => owner.value.containsCall
    | none => false
  | .taggedTemplateExpression =>
    match value.part? "tag" with
    | some tag => tag.value.containsCall
    | none => false
  | _ => false
termination_by value.size
decreasing_by
  · exact owner.smaller
  · exact tag.smaller

/-- Whether a statement ends with an `if` without `else`, which would capture an `else`
that follows. -/
def endsWithOpenIf (value : Value) : Bool :=
  match value.kind with
  | .ifStatement =>
    match value.given? "alternate" with
    | some alternate => alternate.value.endsWithOpenIf
    | none => true
  | .forStatement | .forInStatement | .forOfStatement | .whileStatement | .withStatement
  | .labeledStatement =>
    match value.part? "body" with
    | some body => body.value.endsWithOpenIf
    | none => false
  | _ => false
termination_by value.size
decreasing_by
  · exact alternate.smaller
  all_goals exact body.smaller

end Debundle.Value
