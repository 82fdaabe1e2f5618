import Debundle.Proofs.Script.ReadingOperation
import Debundle.Proofs.Script.Totality

/-!
# Statements and their texts

Every rule for a statement gives a text with matching brackets, behind which another statement may
start.  Of the first clause of a loop it is also told what is on its surface, since that decides
where the head of the loop is divided.

At the end the rules for expressions and statements are put together by induction on the size of
a tree.
-/

namespace Debundle

open Attempt Lexer

namespace Lexer

/-- The keywords of statements, behind each of which an expression or a statement starts, or
brackets. -/
def statementWords : List String :=
  ["break", "case", "catch", "continue", "debugger", "default", "do", "else", "finally", "for",
    "if", "return", "switch", "throw", "try", "while", "with"]

theorem Piece.statementWord {word : String} (hword : statementWords.contains word = true) :
    Piece .operand word [] .operand isWordEnd := by
  have hwords : ∀ word ∈ statementWords, isWord word = true ∧
      Goal.permits .operand (.word word) .operand = true ∧
        ScriptToken.sign? ⟨.operand, .word word⟩ = none := by decide
  obtain ⟨hisWord, hpermits, hsign⟩ := hwords word (List.contains_iff_mem.1 hword)
  have hpiece := Piece.word hisWord hpermits
  rwa [hsign] at hpiece

namespace IsCode

variable {first second text : String} {signs : List Sign} {after : Goal}

theorem append (hfirst : IsCode first) (hsecond : IsCode second) : IsCode (first ++ second) := by
  obtain ⟨_, hfirst⟩ := hfirst
  obtain ⟨_, hsecond⟩ := hsecond
  exact ⟨_, hfirst.append_any hsecond⟩

theorem blank (htext : text.toList.all isBlank = true) : IsCode text :=
  ⟨[], Piece.blank .operand htext⟩

/-- A keyword with a space behind it. -/
theorem keyword (word : String) (hword : statementWords.contains word = true) :
    IsCode (word ++ " ") :=
  ⟨_, (Piece.statementWord hword).append (Piece.space .operand) rfl⟩

/-- A keyword that is a statement by itself. -/
theorem bare (word : String) (hword : statementWords.contains word = true) :
    IsCode (word ++ ";") :=
  ⟨_, (Piece.statementWord hword).append (Piece.divider (by decide) .operand) rfl⟩

theorem semicolon : IsCode ";" :=
  ⟨[], Piece.divider (by decide) .operand⟩

/-- A semicolon ends a statement. -/
theorem terminated (hpiece : Piece .operand text signs after ends) : IsCode (text ++ ";") :=
  ⟨_, hpiece.append (Piece.divider (by decide) after) rfl⟩

/-- An expression behind a keyword. -/
theorem behind (word : String) (hpiece : Piece .operand text signs after ends)
    (hword : statementWords.contains word = true) : IsCode (word ++ " " ++ text ++ ";") := by
  obtain ⟨_, hkeyword⟩ := keyword word hword
  exact terminated (hkeyword.append_any hpiece)

/-- An expression in parentheses, as in the head of a statement. -/
theorem parenthesized (hpiece : Piece .operand text signs after ends) :
    IsCode (parenthesized text) :=
  ⟨[], hpiece.parenthesized .operand rfl (by decide)⟩

end IsCode

end Lexer

theorem IsGroup.isCode {first : Char} {text : String} (hgroup : IsGroup first text) :
    IsCode text :=
  ⟨[], hgroup.piece .operand .operand (by decide)⟩

/-- A statement inside another one, with a blank in front. -/
structure IsBody (text : String) : Prop where
  starts : text.toList.head?.any isWordEnd = true
  isCode : IsCode text

theorem IsBody.behind {text word : String} (hbody : IsBody text)
    (hword : statementWords.contains word = true) : IsCode (word ++ text) := by
  obtain ⟨_, hpiece⟩ := hbody.isCode
  exact ⟨_, (Piece.statementWord hword).append hpiece hbody.starts⟩

theorem expressionStatement_reads {strength : Nat} {signs : List Sign} {content : Value}
    (hreads : IsWorded strength signs content) : Yields IsCode (expressionStatement content) := by
  obtain ⟨text, rfl, hworded⟩ := hreads
  refine .pure ?_
  split
  · exact .terminated (hworded.parenthesized 0).loose
  · exact .terminated hworded.loose

theorem afterSemicolon_reads {clause : Value} (hclause : IsEntry clause) :
    Yields (fun text => ∃ signs, IsItem Anywhere text signs) (Printer.afterSemicolon clause) := by
  obtain ⟨text, signs, rfl, after, -, hpiece⟩ := hclause
  exact .ite (fun _ => .pure ⟨_, after, trivial, (Piece.space .operand).append_any hpiece⟩)
    fun _ => .pure ⟨[], .operand, trivial, (Piece.blank .operand rfl).narrow⟩

/-- A part of the head of a loop. -/
def IsClause (signs : List Sign) (content : Value) : Prop :=
  ∃ text after, content = .text text ∧ after ≠ .property ∧ Piece .operand text signs after ends

theorem IsClause.isEntry {signs : List Sign} {content : Value} (hclause : IsClause signs content) :
    IsEntry content := by
  obtain ⟨text, after, rfl, -, hpiece⟩ := hclause
  exact ⟨text, signs, rfl, after, trivial, hpiece⟩

namespace Value

/-- The signs on the surface of the first clause of a loop. -/
def clauseSigns (style : Style) (noIn : Bool) (level : Int) (clause : Value) : List Sign :=
  if clause.kind = .variableDeclaration then
    (((clause.listAt "declarations").toOption.getD []).map fun part =>
      part.value.declaratorSigns style noIn level).flatten
  else (clause.surface style noIn level).signs

end Value

/-! ### Lines in braces -/

theorem intercalate_append_first (separator first second : String) (texts : List String) :
    separator.intercalate ((first ++ second) :: texts) =
      first ++ separator.intercalate (second :: texts) := by
  cases texts with
  | nil => rw [String.intercalate_singleton, String.intercalate_singleton]
  | cons next texts =>
    rw [String.intercalate_cons_cons, String.intercalate_cons_cons]
    simp only [String.append_assoc]

theorem intercalate_append_last (separator first second : String) (texts : List String) :
    separator.intercalate (texts ++ [first ++ second]) =
      separator.intercalate (texts ++ [first]) ++ second := by
  induction texts with
  | nil => rw [List.nil_append, List.nil_append, String.intercalate_singleton,
      String.intercalate_singleton]
  | cons text texts ih =>
    cases texts with
    | nil =>
      simp only [List.cons_append, List.nil_append, String.intercalate_cons_cons,
        String.intercalate_singleton, String.append_assoc]
    | cons next texts =>
      rw [List.cons_append, List.cons_append, List.cons_append, List.cons_append,
        String.intercalate_cons_cons, String.intercalate_cons_cons, ← List.cons_append,
        ← List.cons_append, ih]
      simp only [String.append_assoc]

/-- A clause of a loop that is there: a declaration or an expression. -/
theorem PartsRead.loopClause_reads {style : Style} {noIn : Bool} {node : Value}
    {printer : Printer node} {kinds : List Kind} {part : Part node} {level : Int}
    (hreading : PartsRead style noIn printer)
    (hpart : part.value.Legible (.one kinds) false)
    (hkinds : kinds.all (.variableDeclaration :: Kind.phrases).contains = true) :
    Yields (IsClause (part.value.clauseSigns style noIn level))
      (printer.loopClause (some part) level) := by
  obtain ⟨tag, fields, hnode, -⟩ := hpart.printable.exists_node
  have hnull : part.value.isNull = false := by
    rw [hnode]
    rfl
  rw [Printer.loopClause, hnull, Value.clauseSigns]
  by_cases hdeclares : part.value.kind = .variableDeclaration
  · have hspelling := hpart.hasSpelling (by simp [hdeclares])
    simp only [Value.hasSpelling, hdeclares] at hspelling
    obtain ⟨found, hfound, hlegible⟩ := hpart.listAt_yields hdeclares
      (show Kind.slot .variableDeclaration "declarations" = .many [.variableDeclarator] from rfl)
      rfl rfl
    have hparts : part.listAt "declarations" = .ok (found.map part.within) := by
      rw [Part.listAt, hpart.printable.asRecord, ok_bind, hfound]
      rfl
    rw [if_pos hdeclares, if_neg Bool.false_ne_true, if_pos hdeclares, hfound]
    refine (hreading.declaration_reads hparts (List.forall_mem_map.2 hlegible)
      (List.contains_iff_mem.1 hspelling)).bind fun text htext => .pure ?_
    obtain ⟨after, hafter, hpiece⟩ := htext
    rw [List.map_map] at hpiece
    exact ⟨text, after, rfl, hafter, hpiece⟩
  · have hphrase := List.mem_of_ne_of_mem hdeclares (Kind.mem_of_all hkinds hpart.kind_mem)
    rw [if_neg hdeclares, if_neg Bool.false_ne_true, if_neg hdeclares]
    refine (hreading.expression_reads (hpart.refit hphrase) rfl).mono ?_
    rintro content ⟨text, rfl, hworded⟩
    exact ⟨text, .operator, rfl, by decide, hworded.loose⟩

namespace Reading

open Value Kind

variable {style : Style} {noIn : Bool} {slot : Slot} {node : Value} {printer : Printer node}
  {kind : Kind} {kinds inside : List Kind} {key : String} {part : Part node}
  {parts : List (Part node)} {strength : Nat} {level : Int}
  (hreading : Reading style noIn slot false printer)

include hreading

theorem substatement_reads (hpart : part.value.Legible (.one statements) false) :
    Yields IsBody (printer.substatement part level) := by
  refine .ite (fun hblock => ?_) fun _ => ?_
  · refine (hreading.block_reads hpart hblock).bind fun block hgroup => .pure ⟨?_, ?_⟩
    · rw [String.toList_append]
      rfl
    · exact .append (.blank rfl) hgroup.isCode
  · refine (hreading.statement_reads hpart).bind fun text hcode => .pure ⟨?_, ?_⟩
    · simp only [String.toList_append]
      rfl
    · exact .append (.append (.blank rfl) (.blank (hreading.pad_blank (level + 1)))) hcode

/-- The statement in the field `body`, behind a head. -/
theorem body_reads (hkind : node.kind = kind) (hslot : kind.slot "body" = .one statements)
    (hkey : kind.holdsKey (node.flag "computed") "body" = false) {head : String}
    (hhead : IsCode head) :
    Yields IsCode (do
      let body ← node.require "body"
      let text ← printer.substatement body level
      pure (head ++ text)) :=
  (hreading.legible.require_yields hkind hkey hslot).bind fun _ hbody =>
    (hreading.substatement_reads hbody).bind fun _ htext => .pure (hhead.append htext.isCode)

theorem returnText_reads (hkind : node.kind = .returnStatement) :
    Yields IsCode (printer.returnText level) := by
  refine hreading.given_reads hkind rfl rfl (fun _ => .pure (.bare "return" rfl))
    fun _ _ hargument => ?_
  refine (hreading.expression_reads hargument rfl).bind fun _ hvalue => .pure ?_
  obtain ⟨text, rfl, hworded⟩ := hvalue
  exact .behind "return" hworded.loose rfl

theorem firstBranch_reads (hpart : part.value.Legible (.one statements) false)
    (needsBraces : Bool) : Yields IsCode (printer.firstBranch part needsBraces level) :=
  .ite (fun _ => (hreading.braced_reads (List.forall_mem_singleton.2 hpart)).bind
    fun _ hgroup => .pure (.append (.blank rfl) hgroup.isCode))
    fun _ => (hreading.substatement_reads hpart).mono fun _ hbody => hbody.isCode

theorem elseBranch_reads (hpart : part.value.Legible (.one statements) false) :
    Yields IsCode (printer.elseBranch part level) := by
  refine .ite (fun _ => ?_) fun _ => ?_
  · exact (hreading.statement_reads hpart).bind fun _ hcode => .pure
      (.append (.keyword "else" rfl) hcode)
  · exact (hreading.substatement_reads hpart).bind fun _ hbody => .pure (hbody.behind rfl)

theorem ifText_reads (hkind : node.kind = .ifStatement) : Yields IsCode (printer.ifText level) := by
  refine (hreading.legible.require_yields hkind rfl rfl).bind fun consequent hconsequent => ?_
  refine (hreading.expressionAt_reads hkind rfl rfl rfl).bind fun _ htest => ?_
  refine (hreading.firstBranch_reads hconsequent _).bind fun branch hbranch => ?_
  obtain ⟨test, rfl, htest⟩ := htest
  have hhead : IsCode ("if " ++ parenthesized test ++ branch) :=
    .append (.append (.keyword "if" rfl) (.parenthesized htest.loose)) hbranch
  refine hreading.given_reads hkind rfl rfl (fun _ => .pure hhead) fun _ _ halternate => ?_
  refine (hreading.elseBranch_reads halternate).bind fun _ helse => .pure ?_
  exact .append (.append hhead (.blank (hreading.separator_blank _))) helse

omit hreading in
theorem inFirstClause (hreading : Reading style noIn slot false printer) :
    Reading style true slot false { printer with noIn := true } :=
  ⟨⟨by rw [hreading.printer_eq]; rfl, hreading.indent, hreading.expression, hreading.statement⟩,
    hreading.legible⟩

/-- A clause of a loop that may be missing. -/
theorem loopClauseAt_reads (hkind : node.kind = kind) (hslot : kind.slot key = .optional kinds)
    (hkinds : kinds.all (.variableDeclaration :: phrases).contains = true)
    (hkey : kind.holdsKey (node.flag "computed") key = false) :
    Yields IsEntry (printer.loopClause (node.part? key) level) := by
  have hempty : IsEntry (.text "") :=
    ⟨"", [], rfl, .operand, trivial, (Piece.blank .operand rfl).narrow⟩
  rcases hreading.legible.part?_cases hkind hkey hslot with hnone | ⟨part, hpart, hclause⟩
  · rw [hnone]
    exact .pure hempty
  · rw [hpart]
    cases hnull : part.value.isNull with
    | true =>
      rw [Printer.loopClause, hnull]
      exact .pure hempty
    | false =>
      exact (hreading.loopClause_reads (hclause.given hnull) hkinds).mono
        fun _ hclause => hclause.isEntry

theorem forText_reads (hkind : node.kind = .forStatement) :
    Yields IsCode (printer.forText level) := by
  refine (hreading.inFirstClause.loopClauseAt_reads hkind rfl rfl rfl).bind fun _ hinit => ?_
  refine (hreading.loopClauseAt_reads hkind rfl rfl rfl).bind fun _ htest => ?_
  refine (hreading.loopClauseAt_reads hkind rfl rfl rfl).bind fun _ hupdate => ?_
  refine (afterSemicolon_reads htest).bind fun test htest => ?_
  refine (afterSemicolon_reads hupdate).bind fun update hupdate => ?_
  obtain ⟨init, _, rfl, first, -, hinit⟩ := hinit
  obtain ⟨_, second, -, htest⟩ := htest
  obtain ⟨_, third, -, hupdate⟩ := hupdate
  have hsemicolon : ∀ goal, Piece goal ";" [] .operand anyChar := Piece.divider (by decide)
  have hclauses := (((hinit.append (hsemicolon first) rfl).append_any htest).append
    (hsemicolon second) rfl).append_any hupdate
  exact hreading.body_reads hkind rfl rfl (.append (.keyword "for" rfl) (.parenthesized hclauses))

/-- The keyword between the two parts of the head of a loop. -/
theorem forEach_reads (hkind : node.kind = .forInStatement ∨ node.kind = .forOfStatement)
    {keyword : String} (hkeyword : keyword ∈ ["in", "of"]) :
    Yields IsCode (printer.forEach keyword strength level) := by
  have hslots : node.kind.slot "left" = .one (.variableDeclaration :: targets) ∧
      node.kind.slot "right" = .one expressions ∧ node.kind.slot "body" = .one statements := by
    rcases hkind with hkind | hkind <;> rw [hkind] <;> exact ⟨rfl, rfl, rfl⟩
  have hplain : ∀ key, node.kind.holdsKey (node.flag "computed") key = false := by
    intro key
    rcases hkind with hkind | hkind <;> rw [hkind] <;> rfl
  have hwords : ∀ word ∈ ["in", "of"], isWord word = true ∧
      Goal.permits .operand (.word word) .operand = true ∧
        Goal.permits .operator (.word word) .operand = true := by decide
  refine (hreading.legible.require_yields rfl (hplain _) hslots.1).bind fun part hpart => ?_
  refine (hreading.loopClause_reads hpart rfl).bind fun _ hleft => ?_
  refine (hreading.expressionAt_reads rfl hslots.2.1 (hplain _) rfl).bind fun _ hright => ?_
  obtain ⟨left, after, rfl, hafter, hleft⟩ := hleft
  obtain ⟨right, rfl, hright⟩ := hright
  obtain ⟨hword, hoperand, hoperator⟩ := hwords keyword hkeyword
  have hpermits : after.permits (.word keyword) .operand = true := by
    cases after with
    | property => exact absurd rfl hafter
    | operand => exact hoperand
    | operator => exact hoperator
  have hhead := (((hleft.append (Piece.space after) rfl).append_any
    (Piece.word hword hpermits)).append (Piece.space .operand) rfl).append_any hright.loose
  exact hreading.body_reads rfl hslots.2.2 (hplain _) (.append (.keyword "for" rfl)
    (.parenthesized hhead))

theorem headed_reads (hkind : node.kind = kind) (hslot : kind.slot key = .one expressions)
    (hbody : kind.slot "body" = .one statements)
    (hplain : ∀ key, kind.holdsKey (node.flag "computed") key = false) {keyword : String}
    (hkeyword : statementWords.contains keyword = true) :
    Yields IsCode (printer.headed keyword key level) := by
  refine (hreading.expressionAt_reads hkind hslot (hplain _) rfl).bind fun _ hhead => ?_
  obtain ⟨head, rfl, hhead⟩ := hhead
  exact hreading.body_reads hkind hbody (hplain _) (.append (.keyword keyword hkeyword)
    (.parenthesized hhead.loose))

theorem doWhile_reads (hkind : node.kind = .doWhileStatement) :
    Yields IsCode (printer.doWhile level) := by
  refine (hreading.legible.require_yields hkind rfl rfl).bind fun _ hpart => ?_
  refine (hreading.expressionAt_reads hkind rfl rfl rfl).bind fun _ htest => ?_
  obtain ⟨test, rfl, htest⟩ := htest
  refine (hreading.substatement_reads hpart).bind fun _ hbody => .pure ?_
  exact .append (.append (.append (.append (hbody.behind rfl) (.blank (hreading.separator_blank _)))
    (.keyword "while" rfl)) (.parenthesized htest.loose)) .semicolon

theorem jump_reads (hkind : node.kind = kind)
    (hslot : kind.slot "label" = .optional [.identifier])
    (hkey : kind.holdsKey (node.flag "computed") "label" = false) {keyword : String}
    (hkeyword : statementWords.contains keyword = true) : Yields IsCode (printer.jump keyword) := by
  refine hreading.given_reads hkind hslot hkey (fun _ => .pure (.bare keyword hkeyword))
    fun _ _ hlabel => ?_
  refine (hlabel.name_yields (List.mem_singleton.1 hlabel.kind_mem)).bind fun _ hname => .pure ?_
  obtain ⟨word, rfl, hword, hreserved⟩ := hname
  exact .behind keyword ((Piece.name hword (hreserved rfl)).mono fun char hends =>
    isWordEnd_of_endsBefore (endsBefore_of_ends hends : endsBefore word char = true)) hkeyword

theorem throwText_reads (hkind : node.kind = .throwStatement) :
    Yields IsCode (printer.throwText level) := by
  refine (hreading.expressionAt_reads hkind rfl rfl rfl).bind fun _ hvalue => ?_
  obtain ⟨text, rfl, hworded⟩ := hvalue
  exact .pure (.behind "throw" hworded.loose rfl)

theorem catchHead_reads (hpart : part.value.Legible (.one [.catchClause]) false) :
    Yields (fun head => IsCode (head ++ " ")) (printer.catchHead part level) := by
  have hcatch : IsCode (" " ++ ("catch" ++ " ")) := .append (.blank rfl) (.keyword "catch" rfl)
  refine (Part.given?_legible hpart (List.mem_singleton.1 hpart.kind_mem) rfl rfl).bind
    fun param? hparam => ?_
  cases param? with
  | none => exact .pure hcatch
  | some param =>
    refine (hreading.expression_reads (hparam param rfl) rfl).bind fun _ hvalue => .pure ?_
    obtain ⟨text, rfl, hworded⟩ := hvalue
    exact (hcatch.append (.parenthesized hworded.loose)).append (.blank rfl)

theorem catchClause_reads (hkind : node.kind = .tryStatement) :
    Yields IsCode (printer.catchClause level) := by
  refine hreading.given_reads hkind rfl rfl (fun _ => .pure (.blank rfl)) fun _ _ hhandler => ?_
  refine (hreading.catchHead_reads hhandler).bind fun _ hhead => ?_
  refine (Part.require_legible hhandler (List.mem_singleton.1 hhandler.kind_mem) rfl rfl).bind
    fun _ hbody => ?_
  exact (hreading.block_reads hbody (List.mem_singleton.1 hbody.kind_mem)).bind
    fun _ hgroup => .pure (hhead.append hgroup.isCode)

theorem finallyClause_reads (hkind : node.kind = .tryStatement) :
    Yields IsCode (printer.finallyClause level) := by
  have hfinally : IsCode (" " ++ ("finally" ++ " ")) :=
    .append (.blank rfl) (.keyword "finally" rfl)
  exact hreading.given_reads hkind rfl rfl (fun _ => .pure (.blank rfl)) fun _ _ hfinalizer =>
    (hreading.block_reads hfinalizer (List.mem_singleton.1 hfinalizer.kind_mem)).bind
      fun _ hgroup => .pure (hfinally.append hgroup.isCode)

theorem tryText_reads (hkind : node.kind = .tryStatement) :
    Yields IsCode (printer.tryText level) := by
  refine (hreading.legible.require_yields hkind rfl rfl).bind fun _ hbody => ?_
  refine (hreading.block_reads hbody (List.mem_singleton.1 hbody.kind_mem)).bind fun _ hblock => ?_
  refine (hreading.catchClause_reads hkind).bind fun _ hhandler => ?_
  refine (hreading.finallyClause_reads hkind).bind fun _ hfinalizer => .pure ?_
  exact .append (.append (.append (.keyword "try" rfl) hblock.isCode) hhandler) hfinalizer

theorem caseLabel_reads (hpart : part.value.Legible (.one [.switchCase]) false) :
    Yields IsCode (printer.caseLabel part level) := by
  refine (Part.given?_legible hpart (List.mem_singleton.1 hpart.kind_mem) rfl rfl).bind
    fun test? htest => ?_
  cases test? with
  | none =>
    have hdefault := (@Piece.statementWord "default" rfl).append (.colon .operand) rfl
    exact .pure ⟨_, hdefault⟩
  | some test =>
    refine (hreading.expression_reads (htest test rfl) rfl).bind fun _ hvalue => .pure ?_
    obtain ⟨text, rfl, hworded⟩ := hvalue
    obtain ⟨_, hcase⟩ := IsCode.keyword "case" rfl
    exact ⟨_, (hcase.append_any hworded.loose).append (.colon .operator) rfl⟩

theorem switchCase_reads (hpart : part.value.Legible (.one [.switchCase]) false) :
    Yields (fun texts => ∀ text ∈ texts, IsCode text) (printer.switchCase part level) := by
  refine (hreading.caseLabel_reads hpart).bind fun label hlabel => ?_
  refine (Part.listAt_legible hpart (List.mem_singleton.1 hpart.kind_mem) rfl).bind
    fun _ hparts => ?_
  have hline : IsCode (printer.pad level ++ label) :=
    .append (.blank (hreading.pad_blank level)) hlabel
  exact .ite (fun _ => .pure (List.forall_mem_singleton.2 hline)) fun _ =>
    (hreading.lines_read hparts).bind fun _ hlines =>
      .pure (List.forall_mem_cons.2 ⟨hline, List.forall_mem_singleton.2 hlines⟩)

theorem switchText_reads (hkind : node.kind = .switchStatement) :
    Yields IsCode (printer.switchText level) := by
  refine (hreading.expressionAt_reads hkind rfl rfl rfl).bind fun _ hsubject => ?_
  obtain ⟨subject, rfl, hsubject⟩ := hsubject
  refine (hreading.legible.listAt_yields hkind rfl rfl rfl).bind fun parts hparts => ?_
  refine (Yields.mapM fun part hpart =>
    hreading.switchCase_reads (hparts part hpart)).bind fun cases hcases => .pure ?_
  have hhead : IsCode ("switch " ++ parenthesized subject ++ " ") :=
    .append (.append (.keyword "switch" rfl) (.parenthesized hsubject.loose))
      (.blank rfl)
  have hlines : IsCode ("\n".intercalate ("" :: (cases.flatten ++
      [printer.pad level]))) := by
    refine Piece.isCode_lines (List.forall_mem_cons.2 ⟨.blank rfl, fun text htext => ?_⟩)
    rw [List.mem_append, List.mem_flatten, List.mem_singleton] at htext
    rcases htext with ⟨texts, htexts, hmem⟩ | rfl
    · exact hcases texts htexts text hmem
    · exact .blank (hreading.pad_blank level)
  obtain ⟨_, hlines⟩ := hlines
  have hbraced : IsCode _ :=
    ⟨_, hlines.braced .operand rfl (show Goal.operand ≠ .property by decide)⟩
  have htext : "\n".intercalate (["switch " ++ parenthesized subject ++ " \x7b"] ++ cases.flatten ++
      [printer.pad level ++ "\x7d"]) =
      "switch " ++ parenthesized subject ++ " " ++ ("\x7b" ++ "\n".intercalate ("" ::
        (cases.flatten ++ [printer.pad level])) ++ "\x7d") := by
    rw [intercalate_append_last, List.singleton_append, List.cons_append,
      show "switch " ++ parenthesized subject ++ " \x7b" =
        "switch " ++ parenthesized subject ++ " \x7b" ++ "" from (String.append_empty).symm,
      intercalate_append_first]
    simp only [String.append_assoc]
    rfl
  rw [show (Value.text subject).display = subject from rfl, htext]
  exact hhead.append hbraced

theorem labeled_reads (hkind : node.kind = .labeledStatement) :
    Yields IsCode (printer.labeled level) := by
  refine (hreading.legible.require_yields hkind rfl rfl).bind fun _ hlabel => ?_
  refine (hlabel.name_yields (List.mem_singleton.1 hlabel.kind_mem)).bind fun _ hname => ?_
  refine (hreading.legible.require_yields hkind rfl rfl).bind fun _ hbody => ?_
  refine (hreading.statement_reads hbody).bind fun text hcode => .pure ?_
  obtain ⟨word, rfl, hword, hreserved⟩ := hname
  obtain ⟨_, hpiece⟩ := hcode
  exact ⟨_, ((Piece.name hword (hreserved rfl)).append (.colonSpace .operator) rfl).append_any
    hpiece⟩

/-- The statements in the field `body`. -/
theorem statements_read (hkind : node.kind = kind)
    (hslot : kind.slot "body" = .many statements) :
    Yields (fun parts => ∀ part ∈ parts, part.value.Legible (.one statements) false)
      (node.listAt "body") :=
  hreading.legible.listAt_yields hkind hslot rfl rfl

theorem expressionStatementAt_reads (hkind : node.kind = .expressionStatement) :
    Yields IsCode (do
      let content ← printer.expressionOf (node.part? "expression")
        Precedence.sequence level
      expressionStatement content) := by
  obtain ⟨part, hpart, hexpression⟩ := hreading.legible.require_yields hkind
    (show Kind.holdsKey .expressionStatement (node.flag "computed") "expression" = false from rfl)
    rfl
  rw [require_eq_ok_iff.1 hpart]
  exact (hreading.expression_reads hexpression rfl).bind
    fun _ hreads => expressionStatement_reads hreads

theorem variableDeclaration_reads (hkind : node.kind = .variableDeclaration) :
    Yields IsCode (do
      let text ← printer.declaration (node.listAt "declarations")
        (declarationKeyword node) level
      pure (text ++ ";")) := by
  have hspelling := hreading.legible.hasSpelling (by simp [hkind])
  simp only [Value.hasSpelling, hkind] at hspelling
  obtain ⟨parts, hparts, hlegible⟩ := hreading.legible.listAt_yields hkind
    (show Kind.slot .variableDeclaration "declarations" = .many [.variableDeclarator] from rfl)
    rfl rfl
  refine (hreading.declaration_reads hparts hlegible (List.contains_iff_mem.1 hspelling)).bind
    fun text htext => .pure ?_
  obtain ⟨after, -, hpiece⟩ := htext
  exact .terminated hpiece

/-- Every kind of statement has a rule, and the rule gives a text of statements. -/
theorem statement?_reads (hkind : node.kind ∈ .program :: statements) (level : Int) :
    ∃ step, printer.statement? level = some step ∧ Yields IsCode step := by
  rw [Printer.statement?]
  cases hnode : node.kind with
  | program =>
    exact ⟨_, rfl, (hreading.statements_read hnode rfl).bind fun _ hparts =>
      hreading.lines_read hparts⟩
  | blockStatement =>
    exact ⟨_, rfl, (hreading.statements_read hnode rfl).bind fun _ hparts =>
      (hreading.braced_reads hparts).mono fun _ hgroup => hgroup.isCode⟩
  | expressionStatement => exact ⟨_, rfl, hreading.expressionStatementAt_reads hnode⟩
  | emptyStatement => exact ⟨_, rfl, .pure .semicolon⟩
  | debuggerStatement => exact ⟨_, rfl, .pure (.bare "debugger" rfl)⟩
  | variableDeclaration => exact ⟨_, rfl, hreading.variableDeclaration_reads hnode⟩
  | functionDeclaration =>
    exact ⟨_, rfl, (hreading.function_reads (.inr hnode)).mono
      fun _ hdefinition => ⟨[], hdefinition.piece .operand (by decide)⟩⟩
  | classDeclaration =>
    exact ⟨_, rfl, (hreading.classText_reads hnode (fun _ => rfl) (.inr rfl) rfl rfl).mono
      fun _ hdefinition => ⟨[], hdefinition.piece .operand (by decide)⟩⟩
  | returnStatement => exact ⟨_, rfl, hreading.returnText_reads hnode⟩
  | ifStatement => exact ⟨_, rfl, hreading.ifText_reads hnode⟩
  | forStatement => exact ⟨_, rfl, hreading.forText_reads hnode⟩
  | forInStatement => exact ⟨_, rfl, hreading.forEach_reads (.inl hnode) (by decide)⟩
  | forOfStatement => exact ⟨_, rfl, hreading.forEach_reads (.inr hnode) (by decide)⟩
  | whileStatement | withStatement =>
    exact ⟨_, rfl, hreading.headed_reads hnode rfl rfl (fun _ => rfl) (by decide)⟩
  | doWhileStatement => exact ⟨_, rfl, hreading.doWhile_reads hnode⟩
  | breakStatement | continueStatement =>
    exact ⟨_, rfl, hreading.jump_reads hnode rfl rfl (by decide)⟩
  | throwStatement => exact ⟨_, rfl, hreading.throwText_reads hnode⟩
  | tryStatement => exact ⟨_, rfl, hreading.tryText_reads hnode⟩
  | switchStatement => exact ⟨_, rfl, hreading.switchText_reads hnode⟩
  | labeledStatement => exact ⟨_, rfl, hreading.labeled_reads hnode⟩
  | _ =>
    rw [hnode] at hkind
    exact absurd hkind (by decide)

end Reading

/-- The texts of all parts that are made of lexemes are known. -/
theorem partsRead {style : Style} (hindent : style.indent.toList.all isBlank = true) (noIn : Bool)
    (node : Value) : PartsRead style noIn (node.printerIn style noIn) := by
  induction hsize : node.size using Nat.strongRecOn generalizing node noIn with
  | ind size ih =>
    have hreading : ∀ (part : Part node) slot, part.value.Legible slot false → ∀ noIn,
        Reading style noIn slot false (part.value.printerIn style noIn) :=
      fun part _ hpart noIn =>
        ⟨ih part.value.size (hsize ▸ part.smaller) noIn part.value rfl, hpart⟩
    refine ⟨rfl, hindent, fun part hpart noIn strength level => ?_, fun part hpart noIn level => ?_⟩
    · obtain ⟨step, hstep, hphrase⟩ :=
        (hreading part _ hpart noIn).phrase?_shows hpart.kind_mem level
      rw [Value.print_eq]
      simp only [Printer.rendition, Printer.asExpression, hstep]
      exact hphrase.map fun _ hshows => hshows.inPlace strength
    · obtain ⟨step, hstep, hcode⟩ := (hreading part _ hpart noIn).statement?_reads
        (List.mem_cons_of_mem _ hpart.kind_mem) level
      rw [Value.print_eq]
      simp only [Printer.rendition, Printer.asStatement, hstep]
      exact hcode

end Debundle
