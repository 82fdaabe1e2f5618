import Debundle.Script.Literal
import Debundle.Script.Printer
import Debundle.Script.Shape
import Debundle.Text.Digit
import Debundle.Text.Letter
import Debundle.Tree.Name

/-!
# Expressions

The printing rule of every kind of expression and pattern.  A rule gives what a node is
printed as, and its binding strength; the place the node stands in decides about
parentheses.
-/

namespace Debundle

/-- Whether two names are the same.  A missing name is the same as null. -/
def sameName (left right : Option Value) : Bool :=
  left.getD .null == right.getD .null

/-- The word in front of the key of an accessor. -/
def Value.accessor? (property : Value) : Option String :=
  match property.lookup "kind" with
  | some (.text "get") => some "get "
  | some (.text "set") => some "set "
  | _ => none

namespace Printer

variable {node : Value}

/-- The name of an identifier. -/
def identifier (_ : Printer node) : Except Fault Phrase := do
  return ⟨← node.name, Precedence.primary⟩

/-- A literal as it was written, or else the text of its value. -/
def literal (_ : Printer node) : Except Fault Phrase := do
  match node.lookup "raw" with
  | some (.text raw) => return .ofText raw Precedence.primary
  | _ => return .ofText (← literalText ((node.lookup "value").getD .null)) Precedence.primary

/-- Missing elements leave a gap, and a gap at the end takes a comma of its own. -/
def array (printer : Printer node) (level : Int) : Except Fault Phrase := do
  let elements ← node.listAt "elements"
  let pieces ← elements.mapM fun element =>
    if element.value.isNull then pure (.text "")
    else printer.expression element Precedence.assignment level
  let gap := if elements.getLast?.any (·.value.isNull) then "," else ""
  return .ofText ("[" ++ (← commaSeparated pieces) ++ gap ++ "]") Precedence.primary

/-- A key and the function behind it, with a keyword in front. -/
def keyedFunction (printer : Printer node) (keyword : String) (key : Value)
    (value : Option (Part node)) (level : Int) : Except Fault Value := do
  return .text (keyword ++ key.display ++ (← printer.functionTailOf value level))

/-- A key and the value behind it. -/
def keyedValue (printer : Printer node) (key : Value) (value : Option (Part node))
    (level : Int) : Except Fault Value := do
  let value ← printer.expressionOf value Precedence.assignment level
  return .text (key.display ++ ": " ++ value.display)

/-- A property whose key may stand for its value.  It is printed so only while the key
and the value still have the same name. -/
def shorthand (printer : Printer node) (part : Part node) (key : Value)
    (value : Option (Part node)) (level : Int) : Except Fault Value := do
  let keyName := (part.value.lookup "key").bind fun held => held.lookup "name"
  match value with
  | none => printer.keyedValue key value level
  | some held =>
    if held.value.kind = .identifier then
      if sameName (held.value.lookup "name") keyName then return key
      else printer.keyedValue key value level
    else if held.value.kind = .assignmentPattern then
      let target ← held.require "left"
      target.value.asRecord
      if sameName (target.value.lookup "name") keyName then
        printer.expression held Precedence.assignment level
      else printer.keyedValue key value level
    else printer.keyedValue key value level

/-- A property that is a method, with the keywords of its function. -/
def propertyMethod (printer : Printer node) (key : Value) (value : Option (Part node))
    (level : Int) : Except Fault Value := do
  match value with
  | none => throw (.noFields .null)
  | some method =>
    let async := if ← method.flag "async" then "async " else ""
    let star := if ← method.flag "generator" then "*" else ""
    printer.keyedFunction (async ++ star) key value level

/-- A property that is no accessor. -/
def dataProperty (printer : Printer node) (part : Part node) (key : Value)
    (value : Option (Part node)) (level : Int) : Except Fault Value :=
  if part.value.flag "method" then printer.propertyMethod key value level
  else if part.value.flag "shorthand" && !part.value.flag "computed" then
    printer.shorthand part key value level
  else printer.keyedValue key value level

/-- A property of an object or an object pattern. -/
def property (printer : Printer node) (part : Part node) (level : Int) :
    Except Fault Value := do
  let value := (part.value.part? "value").map part.within
  let key ← printer.propertyKey part level
  part.value.accessor?.elim (printer.dataProperty part key value level) fun keyword =>
    printer.keyedFunction keyword key value level

/-- An item of an object: a property, or something spread. -/
def objectItem (printer : Printer node) (part : Part node) (level : Int) :
    Except Fault Value :=
  if part.value.kind = .property then printer.property part level
  else printer.expression part Precedence.assignment level

/-- An object has its items on lines of their own. -/
def object (printer : Printer node) (level : Int) : Except Fault Phrase := do
  let items ← node.listAt "properties"
  if items.isEmpty then return .ofText "\x7b\x7d" Precedence.primary
  let texts ← items.mapM fun item => do
    return printer.pad (level + 1) ++ (← (← printer.objectItem item (level + 1)).asAppended)
  return .ofText ("\x7b\n" ++ ",\n".intercalate texts ++ "\n" ++ printer.pad level ++ "\x7d")
    Precedence.primary

/-- An object pattern stands on one line. -/
def objectPattern (printer : Printer node) (level : Int) : Except Fault Phrase := do
  let items ← node.listAt "properties"
  let pieces ← items.mapM fun item => printer.objectItem item level
  return .ofText ("\x7b" ++ (← commaSeparated pieces) ++ "\x7d") Precedence.primary

/-- The name of a function or a class, with a space in front, if it has one. -/
def ownName (_ : Printer node) : Except Fault String :=
  (node.given? "id").elim (.ok "") fun id => do
    return " " ++ (← (← id.value.name).asAppended)

/-- The keyword of a function, and its name if it has one. -/
def functionHead (printer : Printer node) : Except Fault String := do
  let keyword := if node.flag "async" then "async function" else "function"
  let keyword := if node.flag "generator" then keyword ++ "*" else keyword
  return keyword ++ (← printer.ownName)

/-- A function with its keyword, as a declaration or an expression. -/
def function (printer : Printer node) (level : Int) : Except Fault String := do
  let head ← printer.functionHead
  return head
    ++ (← printer.functionTail (node.listAt "params") (node.require "body") level)

/-- A body that is an object is put in parentheses, or it would be taken for a
block. -/
def arrowFunction (printer : Printer node) (level : Int) : Except Fault Phrase := do
  let async := if node.flag "async" then "async " else ""
  let params ← commaSeparated (← printer.expressions (← node.listAt "params") level)
  let head := async ++ parenthesized params ++ " => "
  let body ← node.require "body"
  if body.value.kind = .blockStatement then
    return .ofText (head ++ (← printer.block body level)) Precedence.arrowFunction
  let text ← (← printer.expression body Precedence.assignment level).asStarting
  let text := if startsWith text "\x7b" then parenthesized text else text
  return .ofText (head ++ text) Precedence.arrowFunction

/-- A method of a class.  Members that are no methods are printed verbatim. -/
def method (printer : Printer node) (part : Part node) (level : Int) :
    Except Fault String := do
  if part.value.kind ≠ .methodDefinition then
    return ← printer.style.verbatim part.value
  let function ← part.require "value"
  let keyword := if part.value.flag "static" then "static " else ""
  let accessor := part.value.accessor?.getD ""
  let async := if ← function.flag "async" then "async " else ""
  let star := if ← function.flag "generator" then "*" else ""
  let key ← (← printer.propertyKey part level).asAppended
  return keyword ++ accessor ++ async ++ star ++ key
    ++ (← printer.functionTailOf (some function) level)

/-- What a class extends, if anything. -/
def classAncestor (printer : Printer node) (level : Int) : Except Fault String :=
  (node.given? "superClass").elim (.ok "") fun ancestor => do
    let ancestor ← printer.expression ancestor Precedence.call level
    return " extends " ++ (← ancestor.asAppended)

/-- A class, as a declaration or an expression. -/
def classText (printer : Printer node) (level : Int) : Except Fault String := do
  let name ← printer.ownName
  let ancestor ← printer.classAncestor level
  let head := "class" ++ name ++ ancestor
  let members ← (← node.require "body").listAt "body"
  if members.isEmpty then return head ++ " \x7b\x7d"
  let texts ← members.mapM fun member => do
    return printer.pad (level + 1) ++ (← printer.method member (level + 1))
  return head ++ " \x7b\n" ++ "\n".intercalate texts ++ "\n" ++ printer.pad level ++ "\x7d"

/-- A word is set off by a space, and so is a sign in front of the same sign. -/
def unary (printer : Printer node) (level : Int) : Except Fault Phrase := do
  let operator ← node.require "operator"
  let argument ← printer.expressionAt "argument" Precedence.unary level
  match operator.value with
  | .text operator =>
    if CharSet.letters.spells operator then
      return .ofText (operator ++ " " ++ argument.display) Precedence.unary
    let argument ← argument.asStarting
    match operator.toList.getLast? with
    | none => throw .textIndexOutOfRange
    | some sign =>
      let doubled := argument.toList.head? == some sign && (sign == '+' || sign == '-')
      let gap := if doubled then " " else ""
      return .ofText (operator ++ gap ++ argument) Precedence.unary
  | value => throw (.operatorNotText value.shape)

def update (printer : Printer node) (level : Int) : Except Fault Phrase := do
  let operator := (← node.require "operator").value
  let argument ← printer.expressionAt "argument" Precedence.update level
  if node.flag "prefix" then return ⟨← operator.add argument, Precedence.unary⟩
  return ⟨← argument.add operator, Precedence.update⟩

/-- Operators of one strength group to the left.  Only `**` groups to the right, and has
no unary operator on its left. -/
def binary (printer : Printer node) (level : Int) : Except Fault Phrase := do
  let operator ← (← node.require "operator").value.asKey .fixed
  let word := operator.display
  let strength := match operator with
    | .text operator => Precedence.ofOperator operator
    | _ => Precedence.sequence
  let toRight := word == "**"
  let left ← printer.expressionAt "left"
    (if toRight then Precedence.update else strength) level
  let right ← printer.expressionAt "right" (if toRight then strength else strength + 1) level
  let text := left.display ++ " " ++ word ++ " " ++ right.display
  if word == "in" && printer.noIn then
    return .ofText (parenthesized text) Precedence.primary
  return .ofText text strength

def assignment (printer : Printer node) (level : Int) : Except Fault Phrase := do
  let left ← printer.expressionAt "left" Precedence.call level
  let right ← printer.expressionAt "right" Precedence.assignment level
  let operator ← node.require "operator"
  return .ofText (left.display ++ " " ++ operator.value.display ++ " " ++ right.display)
    Precedence.assignment

def assignmentPattern (printer : Printer node) (level : Int) : Except Fault Phrase := do
  let left ← printer.expressionAt "left" Precedence.call level
  let right ← printer.expressionAt "right" Precedence.assignment level
  return .ofText (left.display ++ " = " ++ right.display) Precedence.assignment

def conditional (printer : Printer node) (level : Int) : Except Fault Phrase := do
  let test ← printer.expressionAt "test" Precedence.logicalOr level
  let consequent ← printer.expressionAt "consequent" Precedence.assignment level
  let alternate ← printer.expressionAt "alternate" Precedence.assignment level
  return .ofText (test.display ++ " ? " ++ consequent.display ++ " : " ++ alternate.display)
    Precedence.conditional

def arguments (printer : Printer node) (level : Int) : Except Fault String := do
  let pieces ← printer.expressions (← node.listAt "arguments") level
  return parenthesized (← commaSeparated pieces)

def call (printer : Printer node) (level : Int) : Except Fault Phrase := do
  let callee ← printer.expressionAt "callee" Precedence.call level
  let arguments ← printer.arguments level
  return ⟨← callee.add (.text arguments), Precedence.call⟩

/-- A callee with a call in it is put in parentheses, so that `new` does not take the
call's arguments. -/
def newCallee (printer : Printer node) (callee : Part node) (level : Int) :
    Except Fault String := do
  let content ← printer.expression callee Precedence.new level
  if callee.value.containsCall then
    let text ← content.asStarting
    return if startsWith text "(" then text else parenthesized text
  content.asAppended

def newCall (printer : Printer node) (level : Int) : Except Fault Phrase := do
  let callee ← printer.newCallee (← node.require "callee") level
  return .ofText ("new " ++ callee ++ (← printer.arguments level)) Precedence.new

/-- The owner of a member.  An integer is put in parentheses, or the point would belong
to it. -/
def memberOwner (printer : Printer node) (level : Int) : Except Fault String := do
  let owner ← node.require "object"
  let text := (← printer.expression owner Precedence.call level).display
  let isNumeral := owner.value.kind == .literal
    && ((owner.value.lookup "value").bind Value.number?).isSome && CharSet.digits.spells text
  return if isNumeral then parenthesized text else text

def member (printer : Printer node) (level : Int) : Except Fault Phrase := do
  let owner ← printer.memberOwner level
  if node.flag "computed" then
    let index ← printer.expressionAt "property" Precedence.sequence level
    return .ofText (owner ++ "[" ++ index.display ++ "]") Precedence.member
  let name ← (← node.require "property").value.name
  return .ofText (owner ++ "." ++ name.display) Precedence.member

def sequence (printer : Printer node) (level : Int) : Except Fault Phrase := do
  let items ← (← node.require "expressions").elements
  let pieces ← printer.expressions items level
  return .ofText (← commaSeparated pieces) Precedence.sequence

/-- A fixed piece of text, followed by the expression of the same index if there is
one. -/
def templatePiece (printer : Printer node) (expressions : Option (Part node))
    (quasi : Part node) (index : Nat) (level : Int) : Except Fault (List Value) := do
  let raw := (← (← quasi.require "value").require "raw").value
  match expressions with
  | none => return [raw]
  | some expressions =>
    if index < (← expressions.value.length) then
      let content ← printer.expression (← expressions.item index) Precedence.sequence level
      return [raw, .text ("$\x7b" ++ (← content.asAppended) ++ "\x7d")]
    else return [raw]

/-- All pieces of a template, in backticks. -/
def template (printer : Printer node) (quasis : Except Fault (List (Part node)))
    (expressions : Option (Part node)) (level : Int) : Except Fault String := do
  let pieces ← (← quasis).zipIdx.mapM fun (quasi, index) =>
    printer.templatePiece expressions quasi index level
  joined "" ([.text "\x60"] ++ pieces.flatten ++ [.text "\x60"])

def templateLiteral (printer : Printer node) (level : Int) : Except Fault Phrase := do
  let expressions := (node.part? "expressions").filter fun part => part.value.isTruthy
  return .ofText (← printer.template (node.listAt "quasis") expressions level)
    Precedence.primary

def taggedTemplate (printer : Printer node) (level : Int) : Except Fault Phrase := do
  let tag ← printer.expressionAt "tag" Precedence.call level
  let quasi ← node.require "quasi"
  quasi.value.asRecord
  let expressions := ((quasi.value.part? "expressions").map quasi.within).filter
    fun part => part.value.isTruthy
  let text ← printer.template (quasi.listAt "quasis") expressions level
  return ⟨← tag.add (.text text), Precedence.call⟩

/-- A word or a sign in front of an argument, which binds as strongly as it asks for. -/
def fronted (printer : Printer node) (front : String) (strength : Nat) (level : Int) :
    Except Fault Phrase := do
  let argument ← printer.expressionAt "argument" strength level
  return .ofText (front ++ (← argument.asAppended)) strength

def yieldText (printer : Printer node) (level : Int) : Except Fault Phrase :=
  let keyword := if node.flag "delegate" then "yield*" else "yield"
  (node.given? "argument").elim (.ok (.ofText keyword Precedence.yield)) fun argument => do
    let argument ← printer.expression argument Precedence.yield level
    return .ofText (keyword ++ " " ++ (← argument.asAppended)) Precedence.yield

def metaProperty (_ : Printer node) : Except Fault Phrase := do
  let owner ← (← node.require "meta").value.name
  let name ← (← node.require "property").value.name
  return .ofText (owner.display ++ "." ++ name.display) Precedence.primary

/-- The phrase of a node of a kind, if it is one that can stand as an expression. -/
def phraseOf? (printer : Printer node) (level : Int) : Kind → Option (Except Fault Phrase)
  | .identifier => some printer.identifier
  | .literal => some printer.literal
  | .thisExpression => some (.ok (.ofText "this" Precedence.primary))
  | .super => some (.ok (.ofText "super" Precedence.primary))
  | .arrayExpression | .arrayPattern => some (printer.array level)
  | .objectExpression => some (printer.object level)
  | .objectPattern => some (printer.objectPattern level)
  | .functionExpression =>
    some ((printer.function level).map fun text => .ofText text Precedence.primary)
  | .arrowFunctionExpression => some (printer.arrowFunction level)
  | .classExpression =>
    some ((printer.classText level).map fun text => .ofText text Precedence.primary)
  | .unaryExpression => some (printer.unary level)
  | .updateExpression => some (printer.update level)
  | .binaryExpression | .logicalExpression => some (printer.binary level)
  | .assignmentExpression => some (printer.assignment level)
  | .assignmentPattern => some (printer.assignmentPattern level)
  | .conditionalExpression => some (printer.conditional level)
  | .callExpression => some (printer.call level)
  | .newExpression => some (printer.newCall level)
  | .memberExpression => some (printer.member level)
  | .sequenceExpression => some (printer.sequence level)
  | .templateLiteral => some (printer.templateLiteral level)
  | .taggedTemplateExpression => some (printer.taggedTemplate level)
  | .spreadElement | .restElement => some (printer.fronted "..." Precedence.assignment level)
  | .yieldExpression => some (printer.yieldText level)
  | .awaitExpression => some (printer.fronted "await " Precedence.unary level)
  | .metaProperty => some printer.metaProperty
  | _ => none

def phrase? (printer : Printer node) (level : Int) : Option (Except Fault Phrase) :=
  printer.phraseOf? level node.kind

end Printer

end Debundle
