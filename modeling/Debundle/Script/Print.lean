import Debundle.Script.Statement

/-!
# Source text of a tree

Printing ties the rules of all kinds together.  A node is printed by the rule of its
kind from what its parts are printed as; a node without a rule is printed verbatim.
-/

namespace Debundle

namespace Printer

variable {node : Value}

/-- A node as an expression in a place that asks for `strength`. -/
def asExpression (printer : Printer node) (strength : Nat) (level : Int) :
    Except Fault Value :=
  match printer.phrase? level with
  | some phrase => phrase.map fun phrase => phrase.inPlace strength
  | none => (printer.style.verbatim node).map .text

/-- A node as a statement.  An expression becomes a statement of its own. -/
def asStatement (printer : Printer node) (level : Int) : Except Fault String :=
  match printer.statement? level with
  | some text => text
  | none =>
    match printer.phrase? level with
    | some phrase => phrase.bind fun phrase => expressionStatement phrase.content
    | none => printer.style.verbatim node

def rendition (printer : Printer node) : Rendition where
  statement := printer.asStatement
  expression := printer.asExpression

/-- A node that stands alone: a statement if it is one, else an expression. -/
def standalone (printer : Printer node) : Except Fault Value :=
  match printer.statement? 0 with
  | some text => text.map .text
  | none => printer.asExpression Precedence.sequence 0

end Printer

namespace Value

/-- How a value is printed, inside the first clause of a `for` head or not. -/
def print (style : Style) (noIn : Bool) (value : Value) : Rendition :=
  let printer : Printer value :=
    { style, noIn, inner := fun noIn part => part.value.print style noIn }
  printer.rendition
termination_by value.size
decreasing_by exact part.smaller

/-- The printer of a value whose parts are printed by the same rules. -/
def printer (style : Style) (value : Value) : Printer value where
  style := style
  noIn := false
  inner := fun noIn part => part.value.print style noIn

/-- The source text of a statement or an expression.  What is nothing but a name comes
out as that name. -/
def script (style : Style) (value : Value) : Except Fault Value :=
  (value.printer style).standalone

end Value

end Debundle
