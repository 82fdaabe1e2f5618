import Debundle.Proofs.Script.MirrorExpression

/-!
# Statements of a renamed tree

Every rule for a statement succeeds on a renamed node where it succeeds on the node.
-/

namespace Debundle

open Renaming

theorem expressionStatement_follows {content other : Value}
    (hcontent : Value.KeepsText content other) :
    Follows Loosely (expressionStatement content) (expressionStatement other) :=
  (Value.asStarting_follows hcontent).loosely

/-- A clause that becomes a text can be printed, whether it is empty or not. -/
theorem afterSemicolon_follows {clause other : Value} (hclause : Value.Alike clause other) :
    Follows Loosely (Printer.afterSemicolon clause) (Printer.afterSemicolon other) := by
  rcases hclause.isTruthy_or with hsame | ⟨text, rfl⟩
  · refine .ite (by rw [hsame]) (fun _ => ?_) fun _ => .loose
    exact (Value.asAppended_follows hclause.keepsText).loosely
  · intro _ _
    rw [Printer.afterSemicolon]
    split
    · exact ⟨_, rfl, trivial⟩
    · exact ⟨_, rfl, trivial⟩

namespace Mirroring

open Value

variable {registry : Registry} {node other : Value} {first : Printer node} {second : Printer other}
  {part : Part node} {new : Part other} {keyword : String} {strength : Nat} {level : Int}
  (hmirror : Mirroring registry first second)

include hmirror

theorem substatement_follows (hpart : part.Revised registry new) :
    Follows Loosely (first.substatement part level) (second.substatement new level) := by
  refine .ite ?_ (fun _ => ?_) fun _ => ?_
  · rw [hpart.kind_eq]
  · exact (hmirror.block_follows hpart).loosely
  · exact (hmirror.statement_follows hpart).loosely

theorem returnText_follows : Follows Loosely (first.returnText level) (second.returnText level) :=
  hmirror.given_follows rfl .loose fun _ _ hargument =>
    (hmirror.expression_follows hargument).loosely

theorem firstBranch_follows {needsBraces : Bool} (hpart : part.Revised registry new) :
    Follows Loosely (first.firstBranch part needsBraces level)
      (second.firstBranch new needsBraces level) :=
  .ite Iff.rfl
    (fun _ => (hmirror.braced_follows (.cons hpart .nil)).loosely)
    fun _ => hmirror.substatement_follows hpart

theorem elseBranch_follows (hpart : part.Revised registry new) :
    Follows Loosely (first.elseBranch part level) (second.elseBranch new level) := by
  refine .ite ?_ (fun _ => ?_) fun _ => ?_
  · rw [hpart.kind_eq]
  · exact (hmirror.statement_follows hpart).loosely
  · exact (hmirror.substatement_follows hpart).loosely

theorem ifText_follows : Follows Loosely (first.ifText level) (second.ifText level) := by
  have halternate := hmirror.revised.given?_rel "alternate" rfl
  refine (hmirror.revised.require_follows rfl).bind fun _ _ hconsequent => ?_
  rw [hconsequent.endsWithOpenIf_eq]
  generalize node.given? "alternate" = part?, other.given? "alternate" = new? at halternate
  refine (hmirror.expressionAt_follows rfl).bind fun _ _ _ => ?_
  cases halternate with
  | none => exact (hmirror.firstBranch_follows hconsequent).loosely
  | some hpart =>
    refine (hmirror.firstBranch_follows hconsequent).bind fun _ _ _ => ?_
    exact (hmirror.elseBranch_follows hpart).loosely

omit hmirror in
theorem inFirstClause (hmirror : Mirroring registry first second) :
    Mirroring registry { first with noIn := true } { second with noIn := true } :=
  { hmirror with noIn_eq := rfl }

theorem loopClause_follows {part? : Option (Part node)} {new? : Option (Part other)}
    (hpart : Option.Rel (Part.Revised registry) part? new?) :
    Follows Alike (first.loopClause part? level) (second.loopClause new? level) := by
  cases hpart with
  | none => exact .pure (.same _)
  | some hpart =>
    rw [Printer.loopClause, Printer.loopClause, hpart.isNull_eq, hpart.kind_eq]
    refine .ite Iff.rfl (fun _ => .pure (.same _)) fun _ => .ite Iff.rfl (fun _ => ?_) fun _ =>
      hmirror.expression_follows hpart
    exact (hmirror.declaration_follows (hpart.listAt_follows rfl)).bind
      fun _ _ _ => .pure (.texts _ _)

theorem forText_follows : Follows Loosely (first.forText level) (second.forText level) := by
  refine (hmirror.inFirstClause.loopClause_follows (hmirror.revised.part?_rel _ rfl)).bind
    fun _ _ _ => ?_
  refine (hmirror.loopClause_follows (hmirror.revised.part?_rel _ rfl)).bind fun _ _ htest => ?_
  refine (hmirror.loopClause_follows (hmirror.revised.part?_rel _ rfl)).bind fun _ _ hupdate => ?_
  refine (afterSemicolon_follows htest).bind fun _ _ _ => ?_
  refine (afterSemicolon_follows hupdate).bind fun _ _ _ => ?_
  refine (hmirror.revised.require_follows rfl).bind fun _ _ hbody => ?_
  exact (hmirror.substatement_follows hbody).loosely

theorem forEach_follows :
    Follows Loosely (first.forEach keyword strength level)
      (second.forEach keyword strength level) := by
  refine (hmirror.revised.require_follows rfl).bind fun _ _ hleft => ?_
  refine (hmirror.loopClause_follows (.some hleft)).bind fun _ _ _ => ?_
  refine (hmirror.expressionAt_follows rfl).bind fun _ _ _ => ?_
  refine (hmirror.revised.require_follows rfl).bind fun _ _ hbody => ?_
  exact (hmirror.substatement_follows hbody).loosely

theorem headed_follows {key : String} (hkey : isRewritten key = false) :
    Follows Loosely (first.headed keyword key level) (second.headed keyword key level) := by
  refine (hmirror.expressionAt_follows hkey).bind fun _ _ _ => ?_
  refine (hmirror.revised.require_follows rfl).bind fun _ _ hbody => ?_
  exact (hmirror.substatement_follows hbody).loosely

theorem doWhile_follows : Follows Loosely (first.doWhile level) (second.doWhile level) := by
  refine (hmirror.revised.require_follows rfl).bind fun _ _ hbody => ?_
  refine (hmirror.expressionAt_follows rfl).bind fun _ _ _ => ?_
  exact (hmirror.substatement_follows hbody).loosely

theorem jump_follows : Follows Loosely (first.jump keyword) (second.jump keyword) :=
  hmirror.given_follows rfl .loose fun _ _ hlabel =>
    hlabel.name_follows.loosely

theorem throwText_follows : Follows Loosely (first.throwText level) (second.throwText level) :=
  (hmirror.expressionAt_follows rfl).loosely

theorem catchHead_follows (hpart : part.Revised registry new) :
    Follows Loosely (first.catchHead part level) (second.catchHead new level) := by
  refine (hpart.given?_follows rfl).bind fun _ _ hparam => ?_
  cases hparam with
  | none => exact .loose
  | some hparam => exact (hmirror.expression_follows hparam).loosely

theorem catchClause_follows :
    Follows Loosely (first.catchClause level) (second.catchClause level) := by
  refine hmirror.given_follows rfl .loose fun _ _ hhandler => ?_
  refine (hmirror.catchHead_follows hhandler).bind fun _ _ _ => ?_
  refine (hhandler.require_follows rfl).bind fun _ _ hbody => ?_
  exact (hmirror.block_follows hbody).loosely

theorem finallyClause_follows :
    Follows Loosely (first.finallyClause level) (second.finallyClause level) :=
  hmirror.given_follows rfl .loose fun _ _ hfinalizer =>
    (hmirror.block_follows hfinalizer).loosely

theorem tryText_follows : Follows Loosely (first.tryText level) (second.tryText level) := by
  refine (hmirror.revised.require_follows rfl).bind fun _ _ hbody => ?_
  refine (hmirror.block_follows hbody).bind fun _ _ _ => ?_
  refine hmirror.catchClause_follows.bind fun _ _ _ => ?_
  exact hmirror.finallyClause_follows.loosely

theorem caseLabel_follows (hpart : part.Revised registry new) :
    Follows Loosely (first.caseLabel part level) (second.caseLabel new level) := by
  refine (hpart.given?_follows rfl).bind fun _ _ htest => ?_
  cases htest with
  | none => exact .loose
  | some htest => exact (hmirror.expression_follows htest).loosely

theorem switchCase_follows (hpart : part.Revised registry new) :
    Follows Loosely (first.switchCase part level) (second.switchCase new level) := by
  refine (hmirror.caseLabel_follows hpart).bind fun _ _ _ => ?_
  refine (hpart.listAt_follows rfl).bind fun _ _ hparts => ?_
  refine .ite ?_ (fun _ => .loose) fun _ => ?_
  · cases hparts <;> simp
  · exact (hmirror.lines_follow hparts).loosely

theorem switchText_follows :
    Follows Loosely (first.switchText level) (second.switchText level) := by
  refine (hmirror.expressionAt_follows rfl).bind fun _ _ _ => ?_
  refine (hmirror.revised.listAt_follows rfl).bind fun _ _ hcases => ?_
  exact (Follows.mapM hcases fun _ _ hcase =>
    hmirror.switchCase_follows hcase).loosely

theorem labeled_follows : Follows Loosely (first.labeled level) (second.labeled level) := by
  refine (hmirror.revised.require_follows rfl).bind fun _ _ hlabel => ?_
  refine hlabel.name_follows.bind fun _ _ _ => ?_
  refine (hmirror.revised.require_follows rfl).bind fun _ _ hbody => ?_
  exact (hmirror.statement_follows hbody).loosely

/-- Nodes of one kind are printed by one rule, or there is none for both. -/
theorem statement?_follows :
    Option.Rel (Follows Loosely) (first.statement? level) (second.statement? level) := by
  rw [Printer.statement?, Printer.statement?, hmirror.revised.kind_eq]
  cases node.kind with
  | program =>
    exact .some ((hmirror.revised.listAt_follows rfl).bind fun _ _ => hmirror.lines_follow)
  | blockStatement =>
    exact .some ((hmirror.revised.listAt_follows rfl).bind fun _ _ => hmirror.braced_follows)
  | expressionStatement =>
    have hexpression := hmirror.revised.part?_rel "expression" rfl
    exact .some ((hmirror.expressionOf_follows hexpression).bind fun _ _ hcontent =>
      expressionStatement_follows hcontent.keepsText)
  | emptyStatement | debuggerStatement => exact .some .loose
  | variableDeclaration =>
    exact .some (hmirror.declaration_follows (hmirror.revised.listAt_follows rfl)).loosely
  | functionDeclaration => exact .some hmirror.function_follows
  | classDeclaration => exact .some hmirror.classText_follows
  | returnStatement => exact .some hmirror.returnText_follows
  | ifStatement => exact .some hmirror.ifText_follows
  | forStatement => exact .some hmirror.forText_follows
  | forInStatement | forOfStatement => exact .some hmirror.forEach_follows
  | whileStatement | withStatement => exact .some (hmirror.headed_follows rfl)
  | doWhileStatement => exact .some hmirror.doWhile_follows
  | breakStatement | continueStatement => exact .some hmirror.jump_follows
  | throwStatement => exact .some hmirror.throwText_follows
  | tryStatement => exact .some hmirror.tryText_follows
  | switchStatement => exact .some hmirror.switchText_follows
  | labeledStatement => exact .some hmirror.labeled_follows
  | _ => exact .none

end Mirroring

end Debundle
