import Debundle.Script.Precedence
import Debundle.Script.Style
import Debundle.Tree.Join
import Debundle.Tree.Kind

/-!
# Printers of one node

The rules that print a node use the text of its parts, and get it from a `Printer`.
A rule therefore does not call itself, and can be read and reasoned about alone.

An expression that is nothing but a name comes out as that name, and a name may be any
value.  So an expression comes out as a value, and each rule says what it needs of it;
a statement always comes out as a text.
-/

namespace Debundle

/-- How a value is printed: as a statement at a level of indentation, or as an
expression in a place that asks for a binding strength. -/
structure Rendition where
  statement : Int → Except Fault String
  expression : Nat → Int → Except Fault Value

/-- The means to print `node`: the style, and the rendition of every part of the node.
Inside the first clause of a `for` head `noIn` is set, because a bare `in` would end
the clause. -/
structure Printer (node : Value) where
  style : Style
  noIn : Bool
  inner : Bool → Part node → Rendition

/-- What an expression is printed as, and its own binding strength. -/
structure Phrase where
  content : Value
  strength : Nat

/-- `text` in parentheses. -/
def parenthesized (text : String) : String :=
  "(" ++ text ++ ")"

namespace Phrase

def ofText (text : String) (strength : Nat) : Phrase where
  content := .text text
  strength := strength

/-- What a phrase is printed as in a place that asks for `strength`. -/
def inPlace (phrase : Phrase) (strength : Nat) : Value :=
  if phrase.strength < strength then .text (parenthesized phrase.content.display)
  else phrase.content

end Phrase

/-- A list of expressions is divided by commas. -/
def commaSeparated (pieces : List Value) : Except Fault String :=
  joined ", " pieces

namespace Printer

variable {node : Value}

def pad (printer : Printer node) (level : Int) : String :=
  printer.style.pad level

def expression (printer : Printer node) (part : Part node) (strength : Nat) (level : Int) :
    Except Fault Value :=
  (printer.inner printer.noIn part).expression strength level

def statement (printer : Printer node) (part : Part node) (level : Int) :
    Except Fault String :=
  (printer.inner printer.noIn part).statement level

/-- The expression in a field that has to be there. -/
def expressionAt (printer : Printer node) (key : String) (strength : Nat) (level : Int) :
    Except Fault Value := do
  printer.expression (← node.require key) strength level

/-- An expression that may be missing, in which case there is nothing to print. -/
def expressionOf (printer : Printer node) (part? : Option (Part node)) (strength : Nat)
    (level : Int) : Except Fault Value :=
  match part? with
  | some part => printer.expression part strength level
  | none => .error (.noPrinter Shape.null.word)

/-- Expressions, each in the place of an item of a list. -/
def expressions (printer : Printer node) (parts : List (Part node)) (level : Int) :
    Except Fault (List Value) :=
  parts.mapM fun part => printer.expression part Precedence.assignment level

/-- Statements on lines of their own. -/
def lines (printer : Printer node) (statements : List (Part node)) (level : Int) :
    Except Fault String := do
  let texts ← statements.mapM fun part => do
    return printer.pad level ++ (← printer.statement part level)
  return "\n".intercalate texts

/-- Statements in braces. -/
def braced (printer : Printer node) (statements : List (Part node)) (level : Int) :
    Except Fault String := do
  if statements.isEmpty then return "\x7b\x7d"
  return "\x7b\n" ++ (← printer.lines statements (level + 1)) ++ "\n" ++ printer.pad level
    ++ "\x7d"

/-- The statements of a block in braces. -/
def block (printer : Printer node) (part : Part node) (level : Int) :
    Except Fault String := do
  printer.braced (← part.listAt "body") level

/-- The parameters and the body of a function. -/
def functionTail (printer : Printer node) (params : Except Fault (List (Part node)))
    (body : Except Fault (Part node)) (level : Int) : Except Fault String := do
  let names ← commaSeparated (← printer.expressions (← params) level)
  return parenthesized names ++ " " ++ (← printer.block (← body) level)

/-- The parameters and the body of the function in a part. -/
def functionTailOf (printer : Printer node) (part? : Option (Part node)) (level : Int) :
    Except Fault String :=
  match part? with
  | some part => printer.functionTail (part.listAt "params") (part.require "body") level
  | none => .error (.noFields .null)

/-- The key of a property or a method. -/
def propertyKey (printer : Printer node) (owner : Part node) (level : Int) :
    Except Fault Value := do
  let key := (owner.value.part? "key").map owner.within
  if owner.value.flag "computed" then
    let inner ← printer.expressionOf key Precedence.assignment level
    return .text ("[" ++ inner.display ++ "]")
  else
    printer.expressionOf key Precedence.primary level

/-- The declarations of a variable declaration, without the semicolon. -/
def declaration (printer : Printer node) (declarations : Except Fault (List (Part node)))
    (keyword : String) (level : Int) : Except Fault String := do
  let pieces ← (← declarations).mapM fun declarator => do
    let target ← printer.expression (← declarator.require "id") Precedence.assignment level
    match ← declarator.given? "init" with
    | some init =>
      let init ← printer.expression init Precedence.assignment level
      target.extend (" = " ++ (← init.asAppended))
    | none => return target
  return keyword ++ " " ++ (← commaSeparated pieces)

end Printer

end Debundle
