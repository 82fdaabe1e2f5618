import Debundle.Proofs.Script.TotalExpression

/-!
# Statements of a script in full detail

Every rule for a statement succeeds.
-/

namespace Debundle

open Attempt

theorem expressionStatement_yields {content : Value} (htext : content.isText = true) :
    Yields Anything (expressionStatement content) :=
  (Value.asStarting_yields htext).bind fun _ _ => .anything

theorem afterSemicolon_yields {clause : Value} (htext : clause.isText = true) :
    Yields Anything (Printer.afterSemicolon clause) :=
  .ite (fun _ => (Value.asAppended_yields htext).bind fun _ _ => .anything) fun _ => .anything

namespace Printing

open Value Kind

variable {slot : Slot} {node : Value} {printer : Printer node} {kind : Kind}
  {kinds inside : List Kind} {key : String} {part : Part node} {parts : List (Part node)}
  {strength : Nat} {level : Int} (hprinting : Printing slot printer)

include hprinting

theorem substatement_yields (hpart : part.value.Printable (.one statements)) :
    Yields Anything (printer.substatement part level) :=
  .ite (fun hblock => (hprinting.block_yields hpart hblock).bind fun _ _ => .anything)
    fun _ => (hprinting.statement_yields hpart).bind fun _ _ => .anything

/-- The statement in the field `body`, behind a head. -/
theorem body_yields {head : String} (hkind : node.kind = kind)
    (hslot : kind.slot "body" = .one statements) :
    Yields Anything (do
      let body ← node.require "body"
      let text ← printer.substatement body level
      pure (head ++ text)) :=
  (hprinting.printable.require_yields hkind hslot).bind fun _ hbody =>
    (hprinting.substatement_yields hbody).bind fun _ _ => .anything

theorem returnText_yields (hkind : node.kind = .returnStatement) :
    Yields Anything (printer.returnText level) :=
  hprinting.given_yields hkind rfl .anything fun _ hargument =>
    (hprinting.expression_yields hargument rfl).bind fun _ _ => .anything

theorem firstBranch_yields {needsBraces : Bool} (hpart : part.value.Printable (.one statements)) :
    Yields Anything (printer.firstBranch part needsBraces level) :=
  .ite (fun _ => (hprinting.braced_yields (List.forall_mem_singleton.2 hpart)).bind
    fun _ _ => .anything) fun _ => hprinting.substatement_yields hpart

theorem elseBranch_yields (hpart : part.value.Printable (.one statements)) :
    Yields Anything (printer.elseBranch part level) :=
  .ite (fun _ => (hprinting.statement_yields hpart).bind fun _ _ => .anything)
    fun _ => (hprinting.substatement_yields hpart).bind fun _ _ => .anything

theorem ifText_yields (hkind : node.kind = .ifStatement) :
    Yields Anything (printer.ifText level) := by
  refine (hprinting.printable.require_yields hkind rfl).bind fun _ hconsequent => ?_
  refine (hprinting.expressionAt_yields hkind rfl rfl).bind fun _ _ => ?_
  refine (hprinting.firstBranch_yields hconsequent).bind fun _ _ => ?_
  exact hprinting.given_yields hkind rfl .anything fun _ halternate =>
    (hprinting.elseBranch_yields halternate).bind fun _ _ => .anything

omit hprinting in
theorem inFirstClause (hprinting : Printing slot printer) :
    Printing slot { printer with noIn := true } :=
  ⟨hprinting.printable, hprinting.expression, hprinting.statement⟩

/-- A clause of a loop that is there: a declaration or an expression. -/
theorem loopClause_yields (hpart : part.value.Printable (.one kinds))
    (hkinds : kinds.all (.variableDeclaration :: phrases).contains = true) :
    YieldsText (printer.loopClause (some part) level) := by
  refine .ite (fun _ => .pure rfl) fun _ => .ite (fun hdeclares => ?_) fun hother => ?_
  · exact (hprinting.declaration_yields (Part.listAt_yields hpart hdeclares rfl)).bind
      fun _ _ => .pure rfl
  · have hphrase := List.mem_of_ne_of_mem hother (mem_of_all hkinds hpart.kind_mem)
    exact hprinting.expression_yields (hpart.refit hphrase) rfl

/-- A clause of a loop that may be missing. -/
theorem loopClauseAt_yields (hkind : node.kind = kind) (hslot : kind.slot key = .optional kinds)
    (hkinds : kinds.all (.variableDeclaration :: phrases).contains = true) :
    YieldsText (printer.loopClause (node.part? key) level) := by
  rcases hprinting.printable.part?_cases hkind hslot with hnone | ⟨part, hpart, hclause⟩
  · rw [hnone]
    exact .pure rfl
  · rw [hpart]
    cases hnull : part.value.isNull with
    | true =>
      rw [Printer.loopClause, hnull]
      exact .pure rfl
    | false => exact hprinting.loopClause_yields (hclause.given hnull) hkinds

theorem forText_yields (hkind : node.kind = .forStatement) :
    Yields Anything (printer.forText level) := by
  refine (hprinting.inFirstClause.loopClauseAt_yields hkind rfl rfl).bind fun _ _ => ?_
  refine (hprinting.loopClauseAt_yields hkind rfl rfl).bind fun _ htest => ?_
  refine (hprinting.loopClauseAt_yields hkind rfl rfl).bind fun _ hupdate => ?_
  refine (afterSemicolon_yields htest).bind fun _ _ => ?_
  refine (afterSemicolon_yields hupdate).bind fun _ _ => ?_
  exact hprinting.body_yields hkind rfl

theorem forEach_yields {keyword : String}
    (hkind : node.kind = .forInStatement ∨ node.kind = .forOfStatement) :
    Yields Anything (printer.forEach keyword strength level) := by
  have hslots : node.kind.slot "left" = .one (.variableDeclaration :: targets) ∧
      node.kind.slot "right" = .one expressions ∧ node.kind.slot "body" = .one statements := by
    rcases hkind with hkind | hkind <;> rw [hkind] <;> exact ⟨rfl, rfl, rfl⟩
  refine (hprinting.printable.require_yields rfl hslots.1).bind fun _ hleft => ?_
  refine (hprinting.loopClause_yields hleft rfl).bind fun _ _ => ?_
  refine (hprinting.expressionAt_yields rfl hslots.2.1 rfl).bind fun _ _ => ?_
  exact hprinting.body_yields rfl hslots.2.2

theorem headed_yields {keyword : String} (hkind : node.kind = kind)
    (hslot : kind.slot key = .one expressions) (hbody : kind.slot "body" = .one statements) :
    Yields Anything (printer.headed keyword key level) := by
  refine (hprinting.expressionAt_yields hkind hslot rfl).bind fun _ _ => ?_
  exact hprinting.body_yields hkind hbody

theorem doWhile_yields (hkind : node.kind = .doWhileStatement) :
    Yields Anything (printer.doWhile level) := by
  refine (hprinting.printable.require_yields hkind rfl).bind fun _ hbody => ?_
  refine (hprinting.expressionAt_yields hkind rfl rfl).bind fun _ _ => ?_
  exact (hprinting.substatement_yields hbody).bind fun _ _ => .anything

theorem jump_yields {keyword : String} (hkind : node.kind = kind)
    (hslot : kind.slot "label" = .optional [.identifier]) :
    Yields Anything (printer.jump keyword) :=
  hprinting.given_yields hkind hslot .anything fun _ hlabel =>
    (hlabel.name_yields (List.mem_singleton.1 hlabel.kind_mem)).bind fun _ _ => .anything

theorem throwText_yields (hkind : node.kind = .throwStatement) :
    Yields Anything (printer.throwText level) :=
  (hprinting.expressionAt_yields hkind rfl rfl).bind fun _ _ => .anything

theorem catchHead_yields (hpart : part.value.Printable (.one [.catchClause])) :
    Yields Anything (printer.catchHead part level) := by
  have hkind := List.mem_singleton.1 hpart.kind_mem
  refine (Part.given?_yields hpart hkind rfl).bind fun param? hparam => ?_
  cases param? with
  | none => exact .anything
  | some param =>
    exact (hprinting.expression_yields (hparam param rfl) rfl).bind fun _ _ => .anything

theorem catchClause_yields (hkind : node.kind = .tryStatement) :
    Yields Anything (printer.catchClause level) := by
  refine hprinting.given_yields hkind rfl .anything fun _ hhandler => ?_
  refine (hprinting.catchHead_yields hhandler).bind fun _ _ => ?_
  refine (Part.require_yields hhandler (List.mem_singleton.1 hhandler.kind_mem) rfl).bind
    fun _ hbody => ?_
  exact (hprinting.block_yields hbody (List.mem_singleton.1 hbody.kind_mem)).bind
    fun _ _ => .anything

theorem finallyClause_yields (hkind : node.kind = .tryStatement) :
    Yields Anything (printer.finallyClause level) :=
  hprinting.given_yields hkind rfl .anything fun _ hfinalizer =>
    (hprinting.block_yields hfinalizer (List.mem_singleton.1 hfinalizer.kind_mem)).bind
      fun _ _ => .anything

theorem tryText_yields (hkind : node.kind = .tryStatement) :
    Yields Anything (printer.tryText level) := by
  refine (hprinting.printable.require_yields hkind rfl).bind fun _ hbody => ?_
  refine (hprinting.block_yields hbody (List.mem_singleton.1 hbody.kind_mem)).bind fun _ _ => ?_
  refine (hprinting.catchClause_yields hkind).bind fun _ _ => ?_
  exact (hprinting.finallyClause_yields hkind).bind fun _ _ => .anything

theorem caseLabel_yields (hpart : part.value.Printable (.one [.switchCase])) :
    Yields Anything (printer.caseLabel part level) := by
  have hkind := List.mem_singleton.1 hpart.kind_mem
  refine (Part.given?_yields hpart hkind rfl).bind fun test? htest => ?_
  cases test? with
  | none => exact .anything
  | some test => exact (hprinting.expression_yields (htest test rfl) rfl).bind fun _ _ => .anything

theorem switchCase_yields (hpart : part.value.Printable (.one [.switchCase])) :
    Yields Anything (printer.switchCase part level) := by
  have hkind := List.mem_singleton.1 hpart.kind_mem
  refine (hprinting.caseLabel_yields hpart).bind fun _ _ => ?_
  refine (Part.listAt_yields hpart hkind rfl).bind fun _ hparts => ?_
  exact .ite (fun _ => .anything) fun _ =>
    (hprinting.lines_yield hparts).bind fun _ _ => .anything

theorem switchText_yields (hkind : node.kind = .switchStatement) :
    Yields Anything (printer.switchText level) := by
  refine (hprinting.expressionAt_yields hkind rfl rfl).bind fun _ _ => ?_
  refine (hprinting.printable.listAt_yields hkind rfl rfl rfl).bind fun parts hparts => ?_
  exact (Yields.mapM_anything fun part hpart =>
    hprinting.switchCase_yields (hparts part hpart)).bind fun _ _ => .anything

theorem labeled_yields (hkind : node.kind = .labeledStatement) :
    Yields Anything (printer.labeled level) := by
  refine (hprinting.printable.require_yields hkind rfl).bind fun _ hlabel => ?_
  refine (hlabel.name_yields (List.mem_singleton.1 hlabel.kind_mem)).bind fun _ _ => ?_
  refine (hprinting.printable.require_yields hkind rfl).bind fun _ hbody => ?_
  exact (hprinting.statement_yields hbody).bind fun _ _ => .anything

/-- The statements in the field `body`. -/
theorem statements_yield (hkind : node.kind = kind)
    (hslot : kind.slot "body" = .many statements) :
    Yields (fun parts => ∀ part ∈ parts, part.value.Printable (.one statements))
      (node.listAt "body") :=
  hprinting.printable.listAt_yields hkind hslot rfl rfl

theorem expressionStatementAt_yields (hkind : node.kind = .expressionStatement) :
    Yields Anything (do
      let content ← printer.expressionOf (node.part? "expression")
        Precedence.sequence level
      expressionStatement content) := by
  obtain ⟨_, hlookup, hexpression⟩ := hprinting.printable.exists_field hkind
    (show Kind.slot .expressionStatement "expression" = .one expressions from rfl) rfl
  obtain ⟨part, hpart, rfl⟩ := exists_part hlookup
  rw [hpart]
  exact (hprinting.expression_yields hexpression rfl).bind
    fun _ htext => expressionStatement_yields htext

/-- Every kind of statement has a rule, and the rule succeeds. -/
theorem statement?_yields (hkind : node.kind ∈ .program :: statements) :
    ∃ step, printer.statement? level = some step ∧ Yields Anything step := by
  rw [Printer.statement?]
  cases hnode : node.kind with
  | program =>
    exact ⟨_, rfl, (hprinting.statements_yield hnode rfl).bind fun _ hparts =>
      hprinting.lines_yield hparts⟩
  | blockStatement =>
    exact ⟨_, rfl, (hprinting.statements_yield hnode rfl).bind fun _ hparts =>
      hprinting.braced_yields hparts⟩
  | expressionStatement => exact ⟨_, rfl, hprinting.expressionStatementAt_yields hnode⟩
  | emptyStatement | debuggerStatement => exact ⟨_, rfl, .anything⟩
  | variableDeclaration =>
    exact ⟨_, rfl, (hprinting.declaration_yields
      (hprinting.printable.listAt_yields hnode rfl rfl rfl)).bind
        fun _ _ => .anything⟩
  | functionDeclaration => exact ⟨_, rfl, hprinting.function_yields (.inr hnode)⟩
  | classDeclaration => exact ⟨_, rfl, hprinting.classText_yields hnode (.inr rfl) rfl rfl⟩
  | returnStatement => exact ⟨_, rfl, hprinting.returnText_yields hnode⟩
  | ifStatement => exact ⟨_, rfl, hprinting.ifText_yields hnode⟩
  | forStatement => exact ⟨_, rfl, hprinting.forText_yields hnode⟩
  | forInStatement => exact ⟨_, rfl, hprinting.forEach_yields (.inl hnode)⟩
  | forOfStatement => exact ⟨_, rfl, hprinting.forEach_yields (.inr hnode)⟩
  | whileStatement | withStatement => exact ⟨_, rfl, hprinting.headed_yields hnode rfl rfl⟩
  | doWhileStatement => exact ⟨_, rfl, hprinting.doWhile_yields hnode⟩
  | breakStatement | continueStatement => exact ⟨_, rfl, hprinting.jump_yields hnode rfl⟩
  | throwStatement => exact ⟨_, rfl, hprinting.throwText_yields hnode⟩
  | tryStatement => exact ⟨_, rfl, hprinting.tryText_yields hnode⟩
  | switchStatement => exact ⟨_, rfl, hprinting.switchText_yields hnode⟩
  | labeledStatement => exact ⟨_, rfl, hprinting.labeled_yields hnode⟩
  | _ =>
    rw [hnode] at hkind
    exact absurd hkind (by decide)

end Printing

end Debundle
