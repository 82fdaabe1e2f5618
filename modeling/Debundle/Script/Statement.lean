import Debundle.Script.Expression

/-!
# Statements

The printing rule of every kind of statement.
-/

namespace Debundle

/-- The words and signs that an expression statement must not start with. -/
def statementStarts : List String :=
  ["function", "async function", "class", "\x7b", "let[", "let ["]

/-- An expression as a statement.  One that would be read as another statement is put
in parentheses. -/
def expressionStatement (content : Value) : Except Fault String := do
  let text ← content.asStarting
  return (if statementStarts.any (startsWith text) then parenthesized text else text) ++ ";"

/-- The keyword of a variable declaration. -/
def declarationKeyword (declaration : Value) : String :=
  match declaration.lookup "kind" with
  | some keyword => keyword.display
  | none => "var"

namespace Printer

variable {node : Value}

/-- A statement inside another: a block on the same line, all else on the next. -/
def substatement (printer : Printer node) (part : Part node) (level : Int) :
    Except Fault String := do
  if part.value.kind = .blockStatement then
    return " " ++ (← printer.block part level)
  return "\n" ++ printer.pad (level + 1) ++ (← printer.statement part (level + 1))

/-- What stands between a statement inside another and the keyword that follows it. -/
def separator (printer : Printer node) (afterBlock : Bool) (level : Int) : String :=
  if afterBlock then " " else "\n" ++ printer.pad level

def returnText (printer : Printer node) (level : Int) : Except Fault String :=
  (node.given? "argument").elim (.ok "return;") fun argument => do
    return "return " ++ (← printer.expression argument Precedence.sequence level).display ++ ";"

/-- The first branch of an `if`.  It is put in braces if it would capture the `else`. -/
def firstBranch (printer : Printer node) (consequent : Part node) (needsBraces : Bool)
    (level : Int) : Except Fault String :=
  if needsBraces then do return " " ++ (← printer.braced [consequent] level)
  else printer.substatement consequent level

/-- The `else` of an `if`.  Another `if` follows on the same line. -/
def elseBranch (printer : Printer node) (alternate : Part node) (level : Int) :
    Except Fault String :=
  if alternate.value.kind = .ifStatement then do
    return "else " ++ (← printer.statement alternate level)
  else do return "else" ++ (← printer.substatement alternate level)

def ifText (printer : Printer node) (level : Int) : Except Fault String := do
  let consequent ← node.require "consequent"
  let alternate? := node.given? "alternate"
  let needsBraces := alternate?.isSome && consequent.value.endsWithOpenIf
  let test ← printer.expressionAt "test" Precedence.sequence level
  let branch ← printer.firstBranch consequent needsBraces level
  let head := "if " ++ parenthesized test.display ++ branch
  alternate?.elim (return head) fun alternate => do
    let afterBlock := needsBraces || consequent.value.kind == .blockStatement
    return head ++ printer.separator afterBlock level ++ (← printer.elseBranch alternate level)

/-- A clause of the head of a loop: nothing, a declaration or an expression. -/
def loopClause (printer : Printer node) (part? : Option (Part node)) (level : Int) :
    Except Fault Value :=
  match part? with
  | none => .ok (.text "")
  | some part =>
    if part.value.isNull then .ok (.text "")
    else if part.value.kind = .variableDeclaration then do
      let keyword := declarationKeyword part.value
      return .text (← printer.declaration (part.listAt "declarations") keyword level)
    else printer.expression part Precedence.sequence level

/-- A clause is set off from the semicolon before it, if there is one. -/
def afterSemicolon (clause : Value) : Except Fault String := do
  if clause.isTruthy then return " " ++ (← clause.asAppended) else return ""

def forText (printer : Printer node) (level : Int) : Except Fault String := do
  let init ← { printer with noIn := true }.loopClause (node.part? "init") level
  let test ← printer.loopClause (node.part? "test") level
  let update ← printer.loopClause (node.part? "update") level
  let head := "for " ++ parenthesized
    (init.display ++ ";" ++ (← afterSemicolon test) ++ ";" ++ (← afterSemicolon update))
  return head ++ (← printer.substatement (← node.require "body") level)

def forEach (printer : Printer node) (keyword : String) (strength : Nat) (level : Int) :
    Except Fault String := do
  let left ← printer.loopClause (some (← node.require "left")) level
  let right ← printer.expressionAt "right" strength level
  let head := "for " ++ parenthesized (left.display ++ " " ++ keyword ++ " " ++ right.display)
  return head ++ (← printer.substatement (← node.require "body") level)

/-- A statement with a head in parentheses and a body. -/
def headed (printer : Printer node) (keyword key : String) (level : Int) :
    Except Fault String := do
  let head ← printer.expressionAt key Precedence.sequence level
  let body ← node.require "body"
  return keyword ++ " " ++ parenthesized head.display ++ (← printer.substatement body level)

def doWhile (printer : Printer node) (level : Int) : Except Fault String := do
  let body ← node.require "body"
  let test ← printer.expressionAt "test" Precedence.sequence level
  let text ← printer.substatement body level
  let afterBlock := body.value.kind == .blockStatement
  return "do" ++ text ++ printer.separator afterBlock level ++ "while "
    ++ parenthesized test.display ++ ";"

def jump (_ : Printer node) (keyword : String) : Except Fault String :=
  (node.given? "label").elim (.ok (keyword ++ ";")) fun label => do
    return keyword ++ " " ++ (← label.value.name).display ++ ";"

def throwText (printer : Printer node) (level : Int) : Except Fault String := do
  return "throw " ++ (← printer.expressionAt "argument" Precedence.sequence level).display
    ++ ";"

/-- The head of the clause that catches an exception, with or without a name for it. -/
def catchHead (printer : Printer node) (handler : Part node) (level : Int) :
    Except Fault String := do
  match ← handler.given? "param" with
  | some param =>
    let param ← printer.expression param Precedence.assignment level
    return " catch " ++ parenthesized param.display
  | none => return " catch"

/-- The clause that catches an exception, if there is one. -/
def catchClause (printer : Printer node) (level : Int) : Except Fault String :=
  (node.given? "handler").elim (.ok "") fun handler => do
    let head ← printer.catchHead handler level
    return head ++ " " ++ (← printer.block (← handler.require "body") level)

/-- The block that is run in any case, if there is one. -/
def finallyClause (printer : Printer node) (level : Int) : Except Fault String :=
  (node.given? "finalizer").elim (.ok "") fun finalizer => do
    return " finally " ++ (← printer.block finalizer level)

def tryText (printer : Printer node) (level : Int) : Except Fault String := do
  let body ← printer.block (← node.require "block") level
  let handler ← printer.catchClause level
  let finalizer ← printer.finallyClause level
  return "try " ++ body ++ handler ++ finalizer

/-- The label of a case.  One without a test is the default. -/
def caseLabel (printer : Printer node) (case : Part node) (level : Int) :
    Except Fault String := do
  match ← case.given? "test" with
  | some test =>
    return "case " ++ (← printer.expression test Precedence.sequence level).display ++ ":"
  | none => return "default:"

/-- A case and its statements, one level further in. -/
def switchCase (printer : Printer node) (case : Part node) (level : Int) :
    Except Fault (List String) := do
  let label ← printer.caseLabel case level
  let statements ← case.listAt "consequent"
  if statements.isEmpty then return [printer.pad level ++ label]
  return [printer.pad level ++ label, ← printer.lines statements (level + 1)]

def switchText (printer : Printer node) (level : Int) : Except Fault String := do
  let subject ← printer.expressionAt "discriminant" Precedence.sequence level
  let cases ← (← node.listAt "cases").mapM fun case => printer.switchCase case (level + 1)
  return "\n".intercalate
    (["switch " ++ parenthesized subject.display ++ " \x7b"] ++ cases.flatten
      ++ [printer.pad level ++ "\x7d"])

def labeled (printer : Printer node) (level : Int) : Except Fault String := do
  let label ← (← node.require "label").value.name
  let body ← printer.statement (← node.require "body") level
  return label.display ++ ": " ++ body

/-- The text of a node of a kind, if it is one of statements. -/
def statementOf? (printer : Printer node) (level : Int) : Kind → Option (Except Fault String)
  | .program => some do printer.lines (← node.listAt "body") level
  | .blockStatement => some do printer.braced (← node.listAt "body") level
  | .expressionStatement => some do
    let expression := node.part? "expression"
    expressionStatement (← printer.expressionOf expression Precedence.sequence level)
  | .emptyStatement => some (.ok ";")
  | .variableDeclaration => some do
    let keyword := declarationKeyword node
    return (← printer.declaration (node.listAt "declarations") keyword level) ++ ";"
  | .functionDeclaration => some (printer.function level)
  | .classDeclaration => some (printer.classText level)
  | .returnStatement => some (printer.returnText level)
  | .ifStatement => some (printer.ifText level)
  | .forStatement => some (printer.forText level)
  | .forInStatement => some (printer.forEach "in" Precedence.sequence level)
  | .forOfStatement => some (printer.forEach "of" Precedence.assignment level)
  | .whileStatement => some (printer.headed "while" "test" level)
  | .doWhileStatement => some (printer.doWhile level)
  | .breakStatement => some (printer.jump "break")
  | .continueStatement => some (printer.jump "continue")
  | .throwStatement => some (printer.throwText level)
  | .tryStatement => some (printer.tryText level)
  | .switchStatement => some (printer.switchText level)
  | .labeledStatement => some (printer.labeled level)
  | .debuggerStatement => some (.ok "debugger;")
  | .withStatement => some (printer.headed "with" "object" level)
  | _ => none

def statement? (printer : Printer node) (level : Int) : Option (Except Fault String) :=
  printer.statementOf? level node.kind

end Printer

end Debundle
