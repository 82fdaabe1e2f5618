import Debundle.Tree.Estree
import Debundle.Tree.Part

/-!
# Parsing

The parser of bundles is a parameter of the library: a function from source text to the
tree of mappings that it stands for, or to a message.
-/

namespace Debundle

structure ParseOptions where
  /-- Whether nodes carry the range of their text. -/
  ranges : Bool := true
  /-- Whether the parser goes on after errors that do not hide the structure. -/
  isTolerant : Bool := false

abbrev Parser := ParseOptions → String → Except String Value

/-- Parses a bundle.  Ranges are asked for, so that nodes that cannot be printed can be
cut out of the source. -/
def Parser.parse (parser : Parser) (source : String) (isTolerant : Bool) :
    Except String Value :=
  return (← parser { isTolerant } source).ofEstree

/-- The number of statements of a script. -/
def Value.statementCount (script : Value) : Nat :=
  match script.lookup "body" with
  | some (.array statements) => statements.length
  | _ => 0

end Debundle
