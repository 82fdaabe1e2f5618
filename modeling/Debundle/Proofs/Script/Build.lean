import Debundle.Module.Table
import Debundle.Proofs.Tree.Equality

/-!
# Building scripts

The nodes from which the module functions in this development are put together, where a
statement is about one module function.
-/

namespace Debundle.Build

def name (text : String) : Value :=
  .node "Identifier" [("name", .text text)]

def number (value : Int) : Value :=
  .node "Literal" [("value", .int value)]

/-- A number as it was written. -/
def numeral (value : Int) (raw : String) : Value :=
  .node "Literal" [("value", .int value), ("raw", .text raw)]

def text (value : String) : Value :=
  .node "Literal" [("value", .text value)]

def member (owner : Value) (property : String) : Value :=
  .node "MemberExpression"
    [("object", owner), ("property", name property), ("computed", .bool false)]

/-- A property whose key stands in brackets. -/
def index (owner key : Value) : Value :=
  .node "MemberExpression" [("object", owner), ("property", key), ("computed", .bool true)]

def unary (operator : String) (argument : Value) : Value :=
  .node "UnaryExpression" [("operator", .text operator), ("argument", argument)]

def binary (operator : String) (left right : Value) : Value :=
  .node "BinaryExpression" [("operator", .text operator), ("left", left), ("right", right)]

def assign (target value : Value) : Value :=
  .node "AssignmentExpression" [("operator", .text "="), ("left", target), ("right", value)]

def call (callee : Value) (arguments : List Value) : Value :=
  .node "CallExpression" [("callee", callee), ("arguments", .array arguments)]

def construct (callee : Value) (arguments : List Value) : Value :=
  .node "NewExpression" [("callee", callee), ("arguments", .array arguments)]

def sequence (items : List Value) : Value :=
  .node "SequenceExpression" [("expressions", .array items)]

/-- An array; empty places are null. -/
def array (elements : List Value) : Value :=
  .node "ArrayExpression" [("elements", .array elements)]

/-- An object with properties that stand for a key and its value at once. -/
def shorthands (names : List String) : Value :=
  .node "ObjectExpression" [("properties", .array (names.map fun text =>
    .node "Property" [("key", name text), ("value", name text), ("kind", .text "init"),
      ("shorthand", .bool true)]))]

def block (statements : List Value) : Value :=
  .node "BlockStatement" [("body", .array statements)]

def perform (expression : Value) : Value :=
  .node "ExpressionStatement" [("expression", expression)]

def branch (test consequent : Value) : Value :=
  .node "IfStatement" [("test", test), ("consequent", consequent), ("alternate", .null)]

def branchElse (test consequent alternate : Value) : Value :=
  .node "IfStatement" [("test", test), ("consequent", consequent), ("alternate", alternate)]

def whileLoop (test body : Value) : Value :=
  .node "WhileStatement" [("test", test), ("body", body)]

def giveBack (expression : Value) : Value :=
  .node "ReturnStatement" [("argument", expression)]

def declare (target value : Value) : Value :=
  .node "VariableDeclaration"
    [("declarations", .array [.node "VariableDeclarator" [("id", target), ("init", value)]]),
      ("kind", .text "var")]

/-- A function without a name of its own. -/
def function (params statements : List Value) : Value :=
  .node "FunctionExpression"
    [("id", .null), ("params", .array params), ("body", block statements)]

/-- The module function `function (e) { e.exports = "value"; }`. -/
def exporting (value : String) : Value :=
  function [name "e"] [perform (assign (member (name "e") "exports") (text value))]

/-- The call `(function (m) {})([...])` of a bundle with these modules. -/
def bundle (modules : List Value) : Value :=
  call (function [name "m"] []) [array modules]

end Debundle.Build
