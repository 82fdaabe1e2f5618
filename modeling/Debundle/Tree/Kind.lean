import Debundle.Tree.Value

/-!
# Kinds of nodes

The node types of ECMAScript that the passes know.  A tag that is not among them,
and a value that is no node, have the kind `unknown`.
-/

namespace Debundle

inductive Kind where
  | arrayExpression | arrayPattern | arrowFunctionExpression | assignmentExpression
  | assignmentPattern | awaitExpression | binaryExpression | blockStatement
  | breakStatement | callExpression | catchClause | classBody | classDeclaration
  | classExpression | conditionalExpression | continueStatement | debuggerStatement
  | doWhileStatement | emptyStatement | expressionStatement | forInStatement
  | forOfStatement | forStatement | functionDeclaration | functionExpression
  | identifier | ifStatement | labeledStatement | literal | logicalExpression
  | memberExpression | metaProperty | methodDefinition | newExpression
  | objectExpression | objectPattern | program | property | restElement
  | returnStatement | sequenceExpression | spreadElement | super | switchCase
  | switchStatement | taggedTemplateExpression | templateElement | templateLiteral
  | thisExpression | throwStatement | tryStatement | unaryExpression
  | updateExpression | variableDeclaration | variableDeclarator | whileStatement
  | withStatement | yieldExpression | unknown
  deriving DecidableEq, Inhabited

namespace Kind

/-- The kind that a type tag names. -/
def ofTag : String → Kind
  | "ArrayExpression" => .arrayExpression
  | "ArrayPattern" => .arrayPattern
  | "ArrowFunctionExpression" => .arrowFunctionExpression
  | "AssignmentExpression" => .assignmentExpression
  | "AssignmentPattern" => .assignmentPattern
  | "AwaitExpression" => .awaitExpression
  | "BinaryExpression" => .binaryExpression
  | "BlockStatement" => .blockStatement
  | "BreakStatement" => .breakStatement
  | "CallExpression" => .callExpression
  | "CatchClause" => .catchClause
  | "ClassBody" => .classBody
  | "ClassDeclaration" => .classDeclaration
  | "ClassExpression" => .classExpression
  | "ConditionalExpression" => .conditionalExpression
  | "ContinueStatement" => .continueStatement
  | "DebuggerStatement" => .debuggerStatement
  | "DoWhileStatement" => .doWhileStatement
  | "EmptyStatement" => .emptyStatement
  | "ExpressionStatement" => .expressionStatement
  | "ForInStatement" => .forInStatement
  | "ForOfStatement" => .forOfStatement
  | "ForStatement" => .forStatement
  | "FunctionDeclaration" => .functionDeclaration
  | "FunctionExpression" => .functionExpression
  | "Identifier" => .identifier
  | "IfStatement" => .ifStatement
  | "LabeledStatement" => .labeledStatement
  | "Literal" => .literal
  | "LogicalExpression" => .logicalExpression
  | "MemberExpression" => .memberExpression
  | "MetaProperty" => .metaProperty
  | "MethodDefinition" => .methodDefinition
  | "NewExpression" => .newExpression
  | "ObjectExpression" => .objectExpression
  | "ObjectPattern" => .objectPattern
  | "Program" => .program
  | "Property" => .property
  | "RestElement" => .restElement
  | "ReturnStatement" => .returnStatement
  | "SequenceExpression" => .sequenceExpression
  | "SpreadElement" => .spreadElement
  | "Super" => .super
  | "SwitchCase" => .switchCase
  | "SwitchStatement" => .switchStatement
  | "TaggedTemplateExpression" => .taggedTemplateExpression
  | "TemplateElement" => .templateElement
  | "TemplateLiteral" => .templateLiteral
  | "ThisExpression" => .thisExpression
  | "ThrowStatement" => .throwStatement
  | "TryStatement" => .tryStatement
  | "UnaryExpression" => .unaryExpression
  | "UpdateExpression" => .updateExpression
  | "VariableDeclaration" => .variableDeclaration
  | "VariableDeclarator" => .variableDeclarator
  | "WhileStatement" => .whileStatement
  | "WithStatement" => .withStatement
  | "YieldExpression" => .yieldExpression
  | _ => .unknown

/-- The type tag of a kind; `unknown` has none. -/
def tag : Kind → String
  | .arrayExpression => "ArrayExpression"
  | .arrayPattern => "ArrayPattern"
  | .arrowFunctionExpression => "ArrowFunctionExpression"
  | .assignmentExpression => "AssignmentExpression"
  | .assignmentPattern => "AssignmentPattern"
  | .awaitExpression => "AwaitExpression"
  | .binaryExpression => "BinaryExpression"
  | .blockStatement => "BlockStatement"
  | .breakStatement => "BreakStatement"
  | .callExpression => "CallExpression"
  | .catchClause => "CatchClause"
  | .classBody => "ClassBody"
  | .classDeclaration => "ClassDeclaration"
  | .classExpression => "ClassExpression"
  | .conditionalExpression => "ConditionalExpression"
  | .continueStatement => "ContinueStatement"
  | .debuggerStatement => "DebuggerStatement"
  | .doWhileStatement => "DoWhileStatement"
  | .emptyStatement => "EmptyStatement"
  | .expressionStatement => "ExpressionStatement"
  | .forInStatement => "ForInStatement"
  | .forOfStatement => "ForOfStatement"
  | .forStatement => "ForStatement"
  | .functionDeclaration => "FunctionDeclaration"
  | .functionExpression => "FunctionExpression"
  | .identifier => "Identifier"
  | .ifStatement => "IfStatement"
  | .labeledStatement => "LabeledStatement"
  | .literal => "Literal"
  | .logicalExpression => "LogicalExpression"
  | .memberExpression => "MemberExpression"
  | .metaProperty => "MetaProperty"
  | .methodDefinition => "MethodDefinition"
  | .newExpression => "NewExpression"
  | .objectExpression => "ObjectExpression"
  | .objectPattern => "ObjectPattern"
  | .program => "Program"
  | .property => "Property"
  | .restElement => "RestElement"
  | .returnStatement => "ReturnStatement"
  | .sequenceExpression => "SequenceExpression"
  | .spreadElement => "SpreadElement"
  | .super => "Super"
  | .switchCase => "SwitchCase"
  | .switchStatement => "SwitchStatement"
  | .taggedTemplateExpression => "TaggedTemplateExpression"
  | .templateElement => "TemplateElement"
  | .templateLiteral => "TemplateLiteral"
  | .thisExpression => "ThisExpression"
  | .throwStatement => "ThrowStatement"
  | .tryStatement => "TryStatement"
  | .unaryExpression => "UnaryExpression"
  | .updateExpression => "UpdateExpression"
  | .variableDeclaration => "VariableDeclaration"
  | .variableDeclarator => "VariableDeclarator"
  | .whileStatement => "WhileStatement"
  | .withStatement => "WithStatement"
  | .yieldExpression => "YieldExpression"
  | .unknown => ""

end Kind

namespace Value

def kind : Value → Kind
  | .node tag _ => Kind.ofTag tag
  | _ => .unknown

/-- A function written as an expression, with or without the arrow. -/
def isFunctionLiteral (value : Value) : Bool :=
  value.kind == .functionExpression || value.kind == .arrowFunctionExpression

end Value

end Debundle
