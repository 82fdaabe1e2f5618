import Debundle.Tree.Part

/-!
# Layout and verbatim text

What printing needs to know beside the tree: how to indent, and the text that the tree
was parsed from.  Where that text is known, a node that there is no rule for is
printed as it stood there.
-/

namespace Debundle

structure Style where
  /-- One level of indentation. -/
  indent : String := "  "
  /-- The text that the tree was parsed from. -/
  source : Option String := none

namespace Style

/-- The indentation of a level; there is none below the first. -/
def pad (style : Style) (level : Int) : String :=
  String.join (List.replicate level.toNat style.indent)

end Style

/-- One bound of a range of a text of `length` characters.  A negative bound counts from
the end, and what lies outside the text is cut off. -/
def rangeBound (length : Nat) (absent : Nat) : Value → Except Fault Nat
  | .null => .ok absent
  | .int bound => .ok (clip bound)
  | .bool bound => .ok (clip (if bound then 1 else 0))
  | _ => .error .badRange
where
  clip (bound : Int) : Nat :=
    if bound < 0 then (bound + length).toNat else min bound.toNat length

/-- The characters from `first` to before `last`. -/
def sliceText (source : String) (first last : Value) : Except Fault String := do
  let chars := source.toList
  let start ← rangeBound chars.length 0 first
  let stop ← rangeBound chars.length chars.length last
  return String.ofList ((chars.take stop).drop start)

/-- The two values that a value is made of. -/
def Value.asPair (value : Value) : Except Fault (Value × Value) :=
  match value.elements with
  | .ok [first, second] => .ok (first, second)
  | .ok items =>
    if items.length < 2 then .error (.tooFewValues items.length) else .error .tooManyValues
  | .error (.notIterable shape) => .error (.notUnpackable shape)
  | .error fault => .error fault

/-- The source text of a value that there is no printing rule for. -/
def Style.verbatim (style : Style) (value : Value) : Except Fault String :=
  match value with
  | .node tag _ =>
    match style.source, (value.lookup "range").filter Value.isTruthy with
    | some source, some range => do
      let (first, last) ← range.asPair
      sliceText source first last
    | _, _ => .error (.noPrinter tag)
  | value => .error (.noPrinter value.shape.word)

end Debundle
