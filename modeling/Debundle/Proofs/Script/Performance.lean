import Debundle.Proofs.Outcome
import Debundle.Script.Statement

/-!
# Printing with a flag that is set and put back

A printing rule is told by its printer whether it works in the first clause of a `for` head.
A generator can instead keep one flag for this, set it before such a clause, and put it back
after the clause, also when the clause cannot be printed.

The steps of such a generator are built here along the printing rules.  A `Performance` of a
rule is what the generator does for it, together with the fact that from every flag it comes
to what the rule gives for that flag, and that the flag is found as it was, on success and on
failure.  Only the order in which parts are printed and the use of the flag are spelled out;
what a rule computes between them is `plain`.
-/

namespace Debundle

open Procedure

/-- What a generator does to print a value.  Its state is the flag. -/
structure Rendering where
  statement : Int → Procedure Fault Bool String
  expression : Nat → Int → Procedure Fault Bool Value

/-- From every flag, the rendition for that flag comes out and the flag is left as it was. -/
structure Rendering.Yields (rendering : Rendering) (rendition : Bool → Rendition) : Prop where
  statement : ∀ level flag,
    outcome (rendering.statement level) flag = ((rendition flag).statement level, flag)
  expression : ∀ strength level flag, outcome (rendering.expression strength level) flag =
    ((rendition flag).expression strength level, flag)

/-- The means of a generator to print `node`: the style, and what it does for every part of
the node. -/
structure Generator (node : Value) where
  style : Style
  inner : Part node → Rendering

/-- What a generator does to print a node by a rule. -/
structure Performance (node : Value) {α : Type} (rule : Printer node → Except Fault α) where
  steps : Generator node → Procedure Fault Bool α
  outcome_eq : ∀ {generator : Generator node} {inner : Bool → Part node → Rendition},
    (∀ part, (generator.inner part).Yields fun flag => inner flag part) →
      ∀ flag, outcome (steps generator) flag = (rule ⟨generator.style, flag, inner⟩, flag)

namespace Performance

variable {node : Value} {α β γ : Type} {rule : Printer node → Except Fault α}

/-- A printer for rules that print no part. -/
def silent (node : Value) (style : Style) (noIn : Bool) : Printer node where
  style := style
  noIn := noIn
  inner := fun _ _ => ⟨fun _ => .ok "", fun _ _ => .ok .null⟩

/-- The performance of a rule that prints no part and does not ask for the flag. -/
def plain (hplain : ∀ style noIn inner,
      rule ⟨style, noIn, inner⟩ = rule (silent node style false) := by intros; rfl) :
    Performance node rule where
  steps generator := MonadExcept.ofExcept (rule (silent node generator.style false))
  outcome_eq _ flag := by rw [outcome_ofExcept, ← hplain _ flag]

/-- The performance of a rule that prints no part, but asks for the flag. -/
def flagged (hflagged : ∀ style noIn inner,
      rule ⟨style, noIn, inner⟩ = rule (silent node style noIn) := by intros; rfl) :
    Performance node rule where
  steps generator := do
    let noIn ← get
    MonadExcept.ofExcept (rule (silent node generator.style noIn))
  outcome_eq _ flag := by rw [outcome_get_bind, outcome_ofExcept, ← hflagged]

def expression (part : Part node) (strength : Nat) (level : Int) :
    Performance node (·.expression part strength level) where
  steps generator := (generator.inner part).expression strength level
  outcome_eq hinner flag := (hinner part).expression strength level flag

def statement (part : Part node) (level : Int) :
    Performance node (·.statement part level) where
  steps generator := (generator.inner part).statement level
  outcome_eq hinner flag := (hinner part).statement level flag

/-- The performance of the rule for a first clause.  The flag is put back whatever happens in
the clause. -/
def inFirstClause (clause : Performance node rule) :
    Performance node fun printer => rule { printer with noIn := true } where
  steps generator := do
    let outer ← get
    set true
    try clause.steps generator
    finally set outer
  outcome_eq hinner flag := by
    rw [outcome_get_bind, outcome_bind_of_ok (outcome_set true)]
    exact outcome_tryFinally (clause.outcome_eq hinner true) (outcome_set flag)

def bind {next : α → Printer node → Except Fault β} (first : Performance node rule)
    (second : ∀ value, Performance node (next value)) :
    Performance node fun printer => rule printer >>= fun value => next value printer where
  steps generator := do
    let value ← first.steps generator
    (second value).steps generator
  outcome_eq hinner flag :=
    outcome_bind_of_steady (first.outcome_eq hinner flag) fun value =>
      (second value).outcome_eq hinner flag

def mapM {step : γ → Printer node → Except Fault α} (items : List γ)
    (item : ∀ value, Performance node (step value)) :
    Performance node fun printer => items.mapM fun value => step value printer where
  steps generator := items.mapM fun value => (item value).steps generator
  outcome_eq hinner flag :=
    outcome_mapM_of_steady (fun value => (item value).outcome_eq hinner flag) items

def ite {condition : Prop} [Decidable condition] {other : Printer node → Except Fault α}
    (first : Performance node rule) (second : Performance node other) :
    Performance node fun printer => if condition then rule printer else other printer where
  steps generator := if condition then first.steps generator else second.steps generator
  outcome_eq hinner flag := by
    by_cases hcondition : condition
    · simp only [if_pos hcondition, first.outcome_eq hinner]
    · simp only [if_neg hcondition, second.outcome_eq hinner]

def elim {found? : Option γ} {next : γ → Printer node → Except Fault α}
    (missing : Performance node rule) (given : ∀ value, Performance node (next value)) :
    Performance node fun printer => found?.elim (rule printer) fun value => next value printer where
  steps generator :=
    found?.elim (missing.steps generator) fun value => (given value).steps generator
  outcome_eq hinner flag := by
    cases found? with
    | none => exact missing.outcome_eq hinner flag
    | some value => exact (given value).outcome_eq hinner flag

/-- Rules that always give the same are performed alike. -/
def congr {other : Printer node → Except Fault α} (performance : Performance node rule)
    (heq : ∀ printer, other printer = rule printer) : Performance node other where
  steps := performance.steps
  outcome_eq hinner flag := by rw [heq, performance.outcome_eq hinner]

def map (performance : Performance node rule) (change : α → β) :
    Performance node fun printer => (rule printer).map change :=
  (performance.bind fun value => (plain : Performance node fun _ => .ok (change value))).congr
    fun printer => by cases rule printer <;> rfl

/-! ## Rules that others are made of -/

def expressionAt (key : String) (strength : Nat) (level : Int) :
    Performance node (·.expressionAt key strength level) :=
  .bind .plain fun part => .expression part strength level

def expressionOf (part? : Option (Part node)) (strength : Nat) (level : Int) :
    Performance node (·.expressionOf part? strength level) :=
  match part? with
  | some part => .expression part strength level
  | none => .plain

def expressions (parts : List (Part node)) (level : Int) :
    Performance node (·.expressions parts level) :=
  .mapM parts fun part => .expression part Precedence.assignment level

def lines (statements : List (Part node)) (level : Int) :
    Performance node (·.lines statements level) :=
  .bind (.mapM statements fun part => .bind (.statement part level) fun _ => .plain) fun _ => .plain

def braced (statements : List (Part node)) (level : Int) :
    Performance node (·.braced statements level) :=
  .ite .plain (.bind (.lines statements (level + 1)) fun _ => .plain)

def block (part : Part node) (level : Int) : Performance node (·.block part level) :=
  .bind .plain fun statements => .braced statements level

def functionTail (params : Except Fault (List (Part node))) (body : Except Fault (Part node))
    (level : Int) :
    Performance node (·.functionTail params body level) :=
  .bind .plain fun params => .bind (.expressions params level) fun _ => .bind .plain fun _ =>
    .bind .plain fun body => .bind (.block body level) fun _ => .plain

def functionTailOf (part? : Option (Part node)) (level : Int) :
    Performance node (·.functionTailOf part? level) :=
  match part? with
  | some part => .functionTail (part.listAt "params") (part.require "body") level
  | none => .plain

def propertyKey (owner : Part node) (level : Int) : Performance node (·.propertyKey owner level) :=
  .ite (.bind (.expressionOf _ Precedence.assignment level) fun _ => .plain)
    (.expressionOf _ Precedence.primary level)

def declaration (declarations : Except Fault (List (Part node))) (keyword : String) (level : Int) :
    Performance node (·.declaration declarations keyword level) :=
  .bind .plain fun declarators => .bind (.mapM declarators fun declarator =>
    .bind .plain fun target => .bind (.expression target Precedence.assignment level) fun _ =>
      .bind .plain fun init? =>
        match init? with
        | some init => .bind (.expression init Precedence.assignment level) fun _ => .plain
        | none => .plain)
    fun _ => .plain

/-! ## Expressions and patterns -/

def array (level : Int) : Performance node (·.array level) :=
  .bind .plain fun elements => .bind
    (.mapM elements fun element => .ite .plain (.expression element Precedence.assignment level))
    fun _ => .plain

def keyedFunction (keyword : String) (key : Value) (value? : Option (Part node)) (level : Int) :
    Performance node (·.keyedFunction keyword key value? level) :=
  .bind (.functionTailOf value? level) fun _ => .plain

def keyedValue (key : Value) (value? : Option (Part node)) (level : Int) :
    Performance node (·.keyedValue key value? level) :=
  .bind (.expressionOf value? Precedence.assignment level) fun _ => .plain

def shorthand (part : Part node) (key : Value) (value? : Option (Part node)) (level : Int) :
    Performance node (·.shorthand part key value? level) :=
  match value? with
  | none => .keyedValue key none level
  | some held => .ite (.ite .plain (.keyedValue key (some held) level)) <| .ite
    (.bind .plain fun _ => .bind .plain fun _ => .ite
      (.expression held Precedence.assignment level) (.keyedValue key (some held) level))
    (.keyedValue key (some held) level)

def propertyMethod (key : Value) (value? : Option (Part node)) (level : Int) :
    Performance node (·.propertyMethod key value? level) :=
  match value? with
  | none => .plain
  | some method =>
    .bind .plain fun _ => .bind .plain fun _ => .keyedFunction _ key (some method) level

def dataProperty (part : Part node) (key : Value) (value? : Option (Part node)) (level : Int) :
    Performance node (·.dataProperty part key value? level) :=
  .ite (.propertyMethod key value? level)
    (.ite (.shorthand part key value? level) (.keyedValue key value? level))

def property (part : Part node) (level : Int) : Performance node (·.property part level) :=
  .bind (.propertyKey part level) fun key =>
    .elim (.dataProperty part key _ level) fun keyword => .keyedFunction keyword key _ level

def objectItem (part : Part node) (level : Int) : Performance node (·.objectItem part level) :=
  .ite (.property part level) (.expression part Precedence.assignment level)

def object (level : Int) : Performance node (·.object level) :=
  .bind .plain fun items => .ite .plain <| .bind
    (.mapM items fun item => .bind (.objectItem item (level + 1)) fun _ => .plain) fun _ => .plain

def objectPattern (level : Int) : Performance node (·.objectPattern level) :=
  .bind .plain fun items => .bind (.mapM items fun item => .objectItem item level) fun _ => .plain

def function (level : Int) : Performance node (·.function level) :=
  .bind .plain fun _ =>
    .bind (.functionTail (node.listAt "params") (node.require "body") level) fun _ => .plain

def arrowFunction (level : Int) : Performance node (·.arrowFunction level) :=
  .bind .plain fun params => .bind (.expressions params level) fun _ => .bind .plain fun _ =>
    .bind .plain fun body => .ite (.bind (.block body level) fun _ => .plain)
      (.bind (.expression body Precedence.assignment level) fun _ => .plain)

def method (part : Part node) (level : Int) : Performance node (·.method part level) :=
  .ite .plain <| .bind .plain fun function => .bind .plain fun _ => .bind .plain fun _ =>
    .bind (.propertyKey part level) fun _ => .bind .plain fun _ =>
      .bind (.functionTailOf (some function) level) fun _ => .plain

def classAncestor (level : Int) : Performance node (·.classAncestor level) :=
  .elim .plain fun ancestor => .bind (.expression ancestor Precedence.call level) fun _ => .plain

def classText (level : Int) : Performance node (·.classText level) :=
  .bind .plain fun _ => .bind (.classAncestor level) fun _ => .bind .plain fun _ =>
    .bind .plain fun members => .ite .plain <| .bind
      (.mapM members fun member => .bind (.method member (level + 1)) fun _ => .plain)
      fun _ => .plain

def unary (level : Int) : Performance node (·.unary level) :=
  .bind .plain fun _ => .bind (.expressionAt "argument" Precedence.unary level) fun _ => .plain

def update (level : Int) : Performance node (·.update level) :=
  .bind .plain fun _ => .bind (.expressionAt "argument" Precedence.update level) fun _ => .plain

def binary (level : Int) : Performance node (·.binary level) :=
  .bind .plain fun _ => .bind .plain fun _ => .bind (.expressionAt "left" _ level) fun _ =>
    .bind (.expressionAt "right" _ level) fun _ => .flagged

def assignment (level : Int) : Performance node (·.assignment level) :=
  .bind (.expressionAt "left" Precedence.call level) fun _ =>
    .bind (.expressionAt "right" Precedence.assignment level) fun _ => .plain

def assignmentPattern (level : Int) : Performance node (·.assignmentPattern level) :=
  .bind (.expressionAt "left" Precedence.call level) fun _ =>
    .bind (.expressionAt "right" Precedence.assignment level) fun _ => .plain

def conditional (level : Int) : Performance node (·.conditional level) :=
  .bind (.expressionAt "test" Precedence.logicalOr level) fun _ =>
    .bind (.expressionAt "consequent" Precedence.assignment level) fun _ =>
      .bind (.expressionAt "alternate" Precedence.assignment level) fun _ => .plain

def arguments (level : Int) : Performance node (·.arguments level) :=
  .bind .plain fun arguments => .bind (.expressions arguments level) fun _ => .plain

def call (level : Int) : Performance node (·.call level) :=
  .bind (.expressionAt "callee" Precedence.call level) fun _ =>
    .bind (.arguments level) fun _ => .plain

def newCallee (callee : Part node) (level : Int) : Performance node (·.newCallee callee level) :=
  .bind (.expression callee Precedence.new level) fun _ => .plain

def newCall (level : Int) : Performance node (·.newCall level) :=
  .bind .plain fun callee => .bind (.newCallee callee level) fun _ =>
    .bind (.arguments level) fun _ => .plain

def memberOwner (level : Int) : Performance node (·.memberOwner level) :=
  .bind .plain fun owner => .bind (.expression owner Precedence.call level) fun _ => .plain

def member (level : Int) : Performance node (·.member level) :=
  .bind (.memberOwner level) fun _ =>
    .ite (.bind (.expressionAt "property" Precedence.sequence level) fun _ => .plain) .plain

def sequence (level : Int) : Performance node (·.sequence level) :=
  .bind .plain fun _ => .bind .plain fun items => .bind (.expressions items level) fun _ => .plain

def templatePiece (expressions? : Option (Part node)) (quasi : Part node) (index : Nat)
    (level : Int) : Performance node (·.templatePiece expressions? quasi index level) :=
  .bind .plain fun _ => .bind .plain fun _ =>
    match expressions? with
    | none => .plain
    | some _ => .bind .plain fun _ => .ite (.bind .plain fun item =>
      .bind (.expression item Precedence.sequence level) fun _ => .plain) .plain

def template (quasis : Except Fault (List (Part node))) (expressions? : Option (Part node))
    (level : Int) : Performance node (·.template quasis expressions? level) :=
  .bind .plain fun quasis => .bind (.mapM quasis.zipIdx fun entry =>
    .templatePiece expressions? entry.1 entry.2 level) fun _ => .plain

def templateLiteral (level : Int) : Performance node (·.templateLiteral level) :=
  .bind (.template (node.listAt "quasis") _ level) fun _ => .plain

def taggedTemplate (level : Int) : Performance node (·.taggedTemplate level) :=
  .bind (.expressionAt "tag" Precedence.call level) fun _ => .bind .plain fun quasi =>
    .bind .plain fun _ => .bind (.template (quasi.listAt "quasis") _ level) fun _ => .plain

def fronted (front : String) (strength : Nat) (level : Int) :
    Performance node (·.fronted front strength level) :=
  .bind (.expressionAt "argument" strength level) fun _ => .plain

def yieldText (level : Int) : Performance node (·.yieldText level) :=
  .elim .plain fun argument => .bind (.expression argument Precedence.yield level) fun _ => .plain

/-! ## Statements -/

def substatement (part : Part node) (level : Int) : Performance node (·.substatement part level) :=
  .ite (.bind (.block part level) fun _ => .plain)
    (.bind (.statement part (level + 1)) fun _ => .plain)

def returnText (level : Int) : Performance node (·.returnText level) :=
  .elim .plain fun argument =>
    .bind (.expression argument Precedence.sequence level) fun _ => .plain

def firstBranch (consequent : Part node) (needsBraces : Bool) (level : Int) :
    Performance node (·.firstBranch consequent needsBraces level) :=
  .ite (.bind (.braced [consequent] level) fun _ => .plain) (.substatement consequent level)

def elseBranch (alternate : Part node) (level : Int) :
    Performance node (·.elseBranch alternate level) :=
  .ite (.bind (.statement alternate level) fun _ => .plain)
    (.bind (.substatement alternate level) fun _ => .plain)

def ifText (level : Int) : Performance node (·.ifText level) :=
  .bind .plain fun consequent => .bind (.expressionAt "test" Precedence.sequence level) fun _ =>
    .bind (.firstBranch consequent _ level) fun _ =>
      .elim .plain fun alternate => .bind (.elseBranch alternate level) fun _ => .plain

def loopClause (part? : Option (Part node)) (level : Int) :
    Performance node (·.loopClause part? level) :=
  match part? with
  | none => .plain
  | some part => .ite .plain <| .ite
    (.bind (.declaration (part.listAt "declarations") _ level) fun _ => .plain)
    (.expression part Precedence.sequence level)

def forText (level : Int) : Performance node (·.forText level) :=
  .bind (.inFirstClause (.loopClause (node.part? "init") level)) fun _ =>
    .bind (.loopClause (node.part? "test") level) fun _ =>
      .bind (.loopClause (node.part? "update") level) fun _ => .bind .plain fun _ =>
        .bind .plain fun _ => .bind .plain fun body =>
          .bind (.substatement body level) fun _ => .plain

def forEach (keyword : String) (strength : Nat) (level : Int) :
    Performance node (·.forEach keyword strength level) :=
  .bind .plain fun left => .bind (.loopClause (some left) level) fun _ =>
    .bind (.expressionAt "right" strength level) fun _ => .bind .plain fun body =>
      .bind (.substatement body level) fun _ => .plain

def headed (keyword key : String) (level : Int) : Performance node (·.headed keyword key level) :=
  .bind (.expressionAt key Precedence.sequence level) fun _ => .bind .plain fun body =>
    .bind (.substatement body level) fun _ => .plain

def doWhile (level : Int) : Performance node (·.doWhile level) :=
  .bind .plain fun body => .bind (.expressionAt "test" Precedence.sequence level) fun _ =>
    .bind (.substatement body level) fun _ => .plain

def throwText (level : Int) : Performance node (·.throwText level) :=
  .bind (.expressionAt "argument" Precedence.sequence level) fun _ => .plain

def catchHead (handler : Part node) (level : Int) : Performance node (·.catchHead handler level) :=
  .bind .plain fun param? =>
    match param? with
    | some param => .bind (.expression param Precedence.assignment level) fun _ => .plain
    | none => .plain

def catchClause (level : Int) : Performance node (·.catchClause level) :=
  .elim .plain fun handler => .bind (.catchHead handler level) fun _ => .bind .plain fun body =>
    .bind (.block body level) fun _ => .plain

def finallyClause (level : Int) : Performance node (·.finallyClause level) :=
  .elim .plain fun finalizer => .bind (.block finalizer level) fun _ => .plain

def tryText (level : Int) : Performance node (·.tryText level) :=
  .bind .plain fun body => .bind (.block body level) fun _ => .bind (.catchClause level) fun _ =>
    .bind (.finallyClause level) fun _ => .plain

def caseLabel (case : Part node) (level : Int) : Performance node (·.caseLabel case level) :=
  .bind .plain fun test? =>
    match test? with
    | some test => .bind (.expression test Precedence.sequence level) fun _ => .plain
    | none => .plain

def switchCase (case : Part node) (level : Int) : Performance node (·.switchCase case level) :=
  .bind (.caseLabel case level) fun _ => .bind .plain fun statements =>
    .ite .plain (.bind (.lines statements (level + 1)) fun _ => .plain)

def switchText (level : Int) : Performance node (·.switchText level) :=
  .bind (.expressionAt "discriminant" Precedence.sequence level) fun _ =>
    .bind .plain fun cases => .bind (.mapM cases fun case => .switchCase case (level + 1))
      fun _ => .plain

def labeled (level : Int) : Performance node (·.labeled level) :=
  .bind .plain fun _ => .bind .plain fun _ => .bind .plain fun body =>
    .bind (.statement body level) fun _ => .plain

end Performance

/-! ## The rule for a node -/

/-- The rule that there is for a node, if there is one, with its performance. -/
inductive Performance? (node : Value) {α : Type} :
    (Printer node → Option (Except Fault α)) → Type
  | absent : Performance? node fun _ => none
  | present {rule : Printer node → Except Fault α} (performance : Performance node rule) :
      Performance? node fun printer => some (rule printer)

/-- What is done with the rule of a node, or in its place. -/
def Performance?.elim {node : Value} {α β : Type}
    {rule? : Printer node → Option (Except Fault α)}
    {other : Printer node → Except Fault β} {change : Except Fault α → Except Fault β}
    (performance? : Performance? node rule?) (missing : Performance node other)
    (given : ∀ {rule : Printer node → Except Fault α}, Performance node rule →
      Performance node fun printer => change (rule printer)) :
    Performance node fun printer => (rule? printer).elim (other printer) change :=
  match performance? with
  | absent => missing
  | present performance => given performance

namespace Performance

variable {node : Value}

def phraseOf? (level : Int) (kind : Kind) : Performance? node (·.phraseOf? level kind) :=
  match kind with
  | .identifier | .literal | .thisExpression | .super | .metaProperty => .present .plain
  | .arrayExpression | .arrayPattern => .present (.array level)
  | .objectExpression => .present (.object level)
  | .objectPattern => .present (.objectPattern level)
  | .functionExpression => .present (.map (.function level) _)
  | .arrowFunctionExpression => .present (.arrowFunction level)
  | .classExpression => .present (.map (.classText level) _)
  | .unaryExpression => .present (.unary level)
  | .updateExpression => .present (.update level)
  | .binaryExpression | .logicalExpression => .present (.binary level)
  | .assignmentExpression => .present (.assignment level)
  | .assignmentPattern => .present (.assignmentPattern level)
  | .conditionalExpression => .present (.conditional level)
  | .callExpression => .present (.call level)
  | .newExpression => .present (.newCall level)
  | .memberExpression => .present (.member level)
  | .sequenceExpression => .present (.sequence level)
  | .templateLiteral => .present (.templateLiteral level)
  | .taggedTemplateExpression => .present (.taggedTemplate level)
  | .spreadElement | .restElement | .awaitExpression => .present (.fronted _ _ level)
  | .yieldExpression => .present (.yieldText level)
  | .blockStatement | .breakStatement | .catchClause | .classBody | .classDeclaration
  | .continueStatement | .debuggerStatement | .doWhileStatement | .emptyStatement
  | .expressionStatement | .forInStatement | .forOfStatement | .forStatement
  | .functionDeclaration | .ifStatement | .labeledStatement | .methodDefinition | .program
  | .property | .returnStatement | .switchCase | .switchStatement | .templateElement
  | .throwStatement | .tryStatement | .variableDeclaration | .variableDeclarator
  | .whileStatement | .withStatement | .unknown =>
    .absent

def phrase? (level : Int) : Performance? node (·.phrase? level) :=
  phraseOf? level node.kind

def statementOf? (level : Int) (kind : Kind) : Performance? node (·.statementOf? level kind) :=
  match kind with
  | .program => .present (.bind .plain fun statements => .lines statements level)
  | .blockStatement => .present (.bind .plain fun statements => .braced statements level)
  | .expressionStatement => .present (.bind (.expressionOf _ _ level) fun _ => .plain)
  | .emptyStatement | .breakStatement | .continueStatement | .debuggerStatement =>
    .present .plain
  | .variableDeclaration => .present (.bind (.declaration _ _ level) fun _ => .plain)
  | .functionDeclaration => .present (.function level)
  | .classDeclaration => .present (.classText level)
  | .returnStatement => .present (.returnText level)
  | .ifStatement => .present (.ifText level)
  | .forStatement => .present (.forText level)
  | .forInStatement | .forOfStatement => .present (.forEach _ _ level)
  | .whileStatement | .withStatement => .present (.headed _ _ level)
  | .doWhileStatement => .present (.doWhile level)
  | .throwStatement => .present (.throwText level)
  | .tryStatement => .present (.tryText level)
  | .switchStatement => .present (.switchText level)
  | .labeledStatement => .present (.labeled level)
  | .arrayExpression | .arrayPattern | .arrowFunctionExpression | .assignmentExpression
  | .assignmentPattern | .awaitExpression | .binaryExpression | .callExpression | .catchClause
  | .classBody | .classExpression | .conditionalExpression | .functionExpression | .identifier
  | .literal | .logicalExpression | .memberExpression | .metaProperty | .methodDefinition
  | .newExpression | .objectExpression | .objectPattern | .property | .restElement
  | .sequenceExpression | .spreadElement | .super | .switchCase | .taggedTemplateExpression
  | .templateElement | .templateLiteral | .thisExpression | .unaryExpression | .updateExpression
  | .variableDeclarator | .yieldExpression | .unknown =>
    .absent

def statement? (level : Int) : Performance? node (·.statement? level) :=
  statementOf? level node.kind

end Performance

end Debundle
