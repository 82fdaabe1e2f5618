/-!
# Binding strength

How strongly the forms of expressions bind, from the comma up.  An expression stands
without parentheses where its own strength is at least the strength that its place
asks for.
-/

namespace Debundle.Precedence

def sequence : Nat := 0
def yield : Nat := 1
def assignment : Nat := 1
def conditional : Nat := 2
def arrowFunction : Nat := 2
def logicalOr : Nat := 3
def logicalAnd : Nat := 4
def bitwiseOr : Nat := 5
def bitwiseXor : Nat := 6
def bitwiseAnd : Nat := 7
def equality : Nat := 8
def relational : Nat := 9
def bitwiseShift : Nat := 10
def additive : Nat := 11
def multiplicative : Nat := 12
def exponent : Nat := 13
def unary : Nat := 14
def update : Nat := 15
def call : Nat := 16
def new : Nat := 17
def member : Nat := 19
def primary : Nat := 20

/-- The strength of a binary or logical operator.  An unknown operator binds as weakly
as a comma. -/
def ofOperator : String → Nat
  | "||" => logicalOr
  | "&&" => logicalAnd
  | "|" => bitwiseOr
  | "^" => bitwiseXor
  | "&" => bitwiseAnd
  | "==" | "!=" | "===" | "!==" => equality
  | "<" | ">" | "<=" | ">=" | "in" | "instanceof" => relational
  | "<<" | ">>" | ">>>" => bitwiseShift
  | "+" | "-" => additive
  | "*" | "/" | "%" => multiplicative
  | "**" => exponent
  | _ => sequence

end Debundle.Precedence
