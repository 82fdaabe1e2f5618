import Debundle.Tree.Kind

/-!
# The grammar of expressions

Operator expressions of ECMAScript 2017, as trees and as sequences of lexemes.  The grammar
is written down production by production and knows nothing of printing: a derivation
says that a sequence of lexemes is read as a tree.

The nonterminals of the grammar are numbered by how tightly they bind:

* 0 an expression with commas, 1 an assignment, 2 a conditional;
* 3 to 12 the operators that group to the left, 13 the power;
* 14 a unary operator, 15 an update, 16 what may be called or assigned to;
* 17 what stands alone.
-/

namespace Debundle

/-- A piece of the text of a script. -/
inductive Lexeme where
  /-- A name or a reserved word. -/
  | word (text : String)
  /-- A number, a string or a regular expression. -/
  | literal (text : String)
  | mark (text : String)
  deriving DecidableEq

namespace Lexeme

def text : Lexeme → String
  | .word text | .literal text | .mark text => text

def comma : Lexeme := .mark ","

end Lexeme

/-- The words that are no names. -/
def reservedWords : List String :=
  ["break", "case", "catch", "class", "const", "continue", "debugger", "default", "delete",
    "do", "else", "enum", "export", "extends", "false", "finally", "for", "function", "if",
    "import", "in", "instanceof", "new", "null", "return", "super", "switch", "this",
    "throw", "true", "try", "typeof", "var", "void", "while", "with"]

/-- The reserved words that are values. -/
def constantWords : List String :=
  ["null", "true", "false"]

/-- Operators that are told apart by their lexemes. -/
class Operator (Op : Type) where
  all : List Op
  lexeme : Op → Lexeme
  find_lexeme : ∀ op, (all.find? fun other => lexeme other = lexeme op) = some op

namespace Operator

variable {Op : Type} [Operator Op]

/-- The operator that a lexeme stands for. -/
def ofLexeme? (found : Lexeme) : Option Op :=
  (all : List Op).find? fun op => lexeme op = found

@[simp]
theorem ofLexeme?_lexeme (op : Op) : ofLexeme? (lexeme op) = some op :=
  find_lexeme op

def spelling (op : Op) : String :=
  (lexeme op).text

end Operator

inductive UnaryOp where
  | plus | minus | negation | complement | typeOf | void | delete

instance : Operator UnaryOp where
  all := [.plus, .minus, .negation, .complement, .typeOf, .void, .delete]
  lexeme
    | .plus => .mark "+"
    | .minus => .mark "-"
    | .negation => .mark "!"
    | .complement => .mark "~"
    | .typeOf => .word "typeof"
    | .void => .word "void"
    | .delete => .word "delete"
  find_lexeme op := by cases op <;> rfl

/-- The mark of an operator that is no word. -/
def UnaryOp.sign? : UnaryOp → Option Char
  | .plus => some '+'
  | .minus => some '-'
  | .negation => some '!'
  | .complement => some '~'
  | .typeOf | .void | .delete => none

inductive UpdateOp where
  | increment | decrement

instance : Operator UpdateOp where
  all := [.increment, .decrement]
  lexeme
    | .increment => .mark "++"
    | .decrement => .mark "--"
  find_lexeme op := by cases op <;> rfl

/-- The operators of binary and logical expressions. -/
inductive BinaryOp where
  | or | and | bitOr | bitXor | bitAnd
  | equal | unequal | identical | distinct
  | less | greater | atMost | atLeast | within | instanceOf
  | shiftLeft | shiftRight | shiftRightZero
  | plus | minus | times | quotient | remainder | power

instance : Operator BinaryOp where
  all := [.or, .and, .bitOr, .bitXor, .bitAnd, .equal, .unequal, .identical, .distinct,
    .less, .greater, .atMost, .atLeast, .within, .instanceOf, .shiftLeft, .shiftRight,
    .shiftRightZero, .plus, .minus, .times, .quotient, .remainder, .power]
  lexeme
    | .or => .mark "||"
    | .and => .mark "&&"
    | .bitOr => .mark "|"
    | .bitXor => .mark "^"
    | .bitAnd => .mark "&"
    | .equal => .mark "=="
    | .unequal => .mark "!="
    | .identical => .mark "==="
    | .distinct => .mark "!=="
    | .less => .mark "<"
    | .greater => .mark ">"
    | .atMost => .mark "<="
    | .atLeast => .mark ">="
    | .within => .word "in"
    | .instanceOf => .word "instanceof"
    | .shiftLeft => .mark "<<"
    | .shiftRight => .mark ">>"
    | .shiftRightZero => .mark ">>>"
    | .plus => .mark "+"
    | .minus => .mark "-"
    | .times => .mark "*"
    | .quotient => .mark "/"
    | .remainder => .mark "%"
    | .power => .mark "**"
  find_lexeme op := by cases op <;> rfl

namespace BinaryOp

/-- The level of an expression with the operator. -/
def level : BinaryOp → Nat
  | .or => 3
  | .and => 4
  | .bitOr => 5
  | .bitXor => 6
  | .bitAnd => 7
  | .equal | .unequal | .identical | .distinct => 8
  | .less | .greater | .atMost | .atLeast | .within | .instanceOf => 9
  | .shiftLeft | .shiftRight | .shiftRightZero => 10
  | .plus | .minus => 11
  | .times | .quotient | .remainder => 12
  | .power => 13

/-- The level of the left operand.  A power has no unary operator there. -/
def leftLevel : BinaryOp → Nat
  | .power => 15
  | op => op.level

/-- The level of the right operand.  Powers group to the right. -/
def rightLevel : BinaryOp → Nat
  | .power => 13
  | op => op.level + 1

/-- The kind of a node with the operator. -/
def kind : BinaryOp → Kind
  | .or | .and => .logicalExpression
  | _ => .binaryExpression

theorem level_bounds (op : BinaryOp) : 3 ≤ op.level ∧ op.level ≤ 13 := by
  cases op <;> decide

/-- What the levels of the operands have to do with the operator's own. -/
theorem level_cases (op : BinaryOp) :
    (op.leftLevel = op.level ∧ op.rightLevel = op.level + 1 ∧ op.level ≤ 12) ∨
      (op.leftLevel = 15 ∧ op.rightLevel = 13 ∧ op.level = 13) := by
  cases op <;> decide

end BinaryOp

inductive AssignOp where
  | plain | plus | minus | times | quotient | remainder | power
  | shiftLeft | shiftRight | shiftRightZero | bitAnd | bitXor | bitOr

instance : Operator AssignOp where
  all := [.plain, .plus, .minus, .times, .quotient, .remainder, .power, .shiftLeft,
    .shiftRight, .shiftRightZero, .bitAnd, .bitXor, .bitOr]
  lexeme
    | .plain => .mark "="
    | .plus => .mark "+="
    | .minus => .mark "-="
    | .times => .mark "*="
    | .quotient => .mark "/="
    | .remainder => .mark "%="
    | .power => .mark "**="
    | .shiftLeft => .mark "<<="
    | .shiftRight => .mark ">>="
    | .shiftRightZero => .mark ">>>="
    | .bitAnd => .mark "&="
    | .bitXor => .mark "^="
    | .bitOr => .mark "|="
  find_lexeme op := by cases op <;> rfl

/-- An operator expression. -/
inductive Expr where
  | name (text : String)
  | self
  /-- A literal, by the text that it is written as. -/
  | literal (text : String)
  /-- An array; a place without an element is a hole. -/
  | array (elements : List (Option Expr))
  | unary (op : UnaryOp) (argument : Expr)
  | update (op : UpdateOp) (isFront : Bool) (argument : Expr)
  | binary (op : BinaryOp) (left right : Expr)
  | assign (op : AssignOp) (target value : Expr)
  | conditional (test consequent alternate : Expr)
  | sequence (items : List Expr)
  | member (owner : Expr) (name : String)
  | index (owner place : Expr)
  | call (callee : Expr) (arguments : List Expr)

/-- What can be assigned to. -/
def Expr.isTarget : Expr → Bool
  | .name _ | .member .. | .index .. => true
  | _ => false

/-- The elements of an array between its brackets.  Every element is followed by a comma;
only behind the last one, if it is no hole, the comma may be missing. -/
inductive Elements : List (Option (List Lexeme)) → List Lexeme → Prop where
  | none : Elements [] []
  | last (item : List Lexeme) : Elements [some item] item
  | item (item : List Lexeme) {rest : List (Option (List Lexeme))} {lexemes : List Lexeme} :
      Elements rest lexemes → Elements (some item :: rest) (item ++ .comma :: lexemes)
  | hole {rest : List (Option (List Lexeme))} {lexemes : List Lexeme} :
      Elements rest lexemes → Elements (Option.none :: rest) (.comma :: lexemes)

/-- Items with commas between them. -/
inductive Separated : List (List Lexeme) → List Lexeme → Prop where
  | last (item : List Lexeme) : Separated [item] item
  | item (item : List Lexeme) {rest : List (List Lexeme)} {lexemes : List Lexeme} :
      Separated rest lexemes → Separated (item :: rest) (item ++ .comma :: lexemes)

/-- The arguments of a call between its parentheses.  A comma may follow the last one. -/
inductive ArgumentList : List (List Lexeme) → List Lexeme → Prop where
  | none : ArgumentList [] []
  | some {items : List (List Lexeme)} {lexemes : List Lexeme} :
      Separated items lexemes → ArgumentList items lexemes
  | someComma {items : List (List Lexeme)} {lexemes : List Lexeme} :
      Separated items lexemes → ArgumentList items (lexemes ++ [.comma])

/-- A sequence of lexemes is read as an expression of a level. -/
inductive Derives : Nat → List Lexeme → Expr → Prop where
  /-- What binds tightly may stand where less is asked for. -/
  | lower {low high : Nat} {lexemes : List Lexeme} {expr : Expr} :
      low ≤ high → Derives high lexemes expr → Derives low lexemes expr
  | name {text : String} : text ∉ reservedWords → Derives 17 [.word text] (.name text)
  | self : Derives 17 [.word "this"] .self
  | constant {text : String} :
      text ∈ constantWords → Derives 17 [.word text] (.literal text)
  | literal {text : String} : Derives 17 [.literal text] (.literal text)
  | group {lexemes : List Lexeme} {expr : Expr} :
      Derives 0 lexemes expr → Derives 17 (.mark "(" :: lexemes ++ [.mark ")"]) expr
  | array {elements : List (Option (List Lexeme × Expr))} {lexemes : List Lexeme} :
      (∀ element, some element ∈ elements → Derives 1 element.1 element.2) →
      Elements (elements.map (Option.map Prod.fst)) lexemes →
      Derives 17 (.mark "[" :: lexemes ++ [.mark "]"])
        (.array (elements.map (Option.map Prod.snd)))
  | member {lexemes : List Lexeme} {owner : Expr} {name : String} :
      Derives 16 lexemes owner →
      Derives 16 (lexemes ++ [.mark ".", .word name]) (.member owner name)
  | index {front inner : List Lexeme} {owner place : Expr} :
      Derives 16 front owner → Derives 0 inner place →
      Derives 16 (front ++ .mark "[" :: inner ++ [.mark "]"]) (.index owner place)
  | call {front inner : List Lexeme} {callee : Expr} {items : List (List Lexeme × Expr)} :
      Derives 16 front callee → (∀ item ∈ items, Derives 1 item.1 item.2) →
      ArgumentList (items.map Prod.fst) inner →
      Derives 16 (front ++ .mark "(" :: inner ++ [.mark ")"])
        (.call callee (items.map Prod.snd))
  | updateAfter {op : UpdateOp} {lexemes : List Lexeme} {target : Expr} :
      Derives 16 lexemes target → target.isTarget = true →
      Derives 15 (lexemes ++ [Operator.lexeme op]) (.update op false target)
  | updateFront {op : UpdateOp} {lexemes : List Lexeme} {target : Expr} :
      Derives 16 lexemes target → target.isTarget = true →
      Derives 15 (Operator.lexeme op :: lexemes) (.update op true target)
  | unary {op : UnaryOp} {lexemes : List Lexeme} {argument : Expr} :
      Derives 14 lexemes argument →
      Derives 14 (Operator.lexeme op :: lexemes) (.unary op argument)
  | binary {op : BinaryOp} {front back : List Lexeme} {left right : Expr} :
      Derives op.leftLevel front left → Derives op.rightLevel back right →
      Derives op.level (front ++ Operator.lexeme op :: back) (.binary op left right)
  | conditional {first second third : List Lexeme} {test consequent alternate : Expr} :
      Derives 3 first test → Derives 1 second consequent → Derives 1 third alternate →
      Derives 2 (first ++ .mark "?" :: second ++ .mark ":" :: third)
        (.conditional test consequent alternate)
  | assign {op : AssignOp} {front back : List Lexeme} {target value : Expr} :
      Derives 16 front target → target.isTarget = true → Derives 1 back value →
      Derives 1 (front ++ Operator.lexeme op :: back) (.assign op target value)
  | sequence {items : List (List Lexeme × Expr)} {lexemes : List Lexeme} :
      2 ≤ items.length → (∀ item ∈ items, Derives 1 item.1 item.2) →
      Separated (items.map Prod.fst) lexemes →
      Derives 0 lexemes (.sequence (items.map Prod.snd))

end Debundle
