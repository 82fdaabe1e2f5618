import Debundle.Proofs.Script.Branching
import Debundle.Proofs.Script.RoundTrip

/-!
# Every `else` stays with its own `if`

The text of a statement falls into the lexemes of the statement with its braces, wherever it is
printed, so that the grammar reads it back.  Conditions, the heads of loops and statements
without a statement inside may be anything whose text falls into lexemes.  The operator
expressions and the statements that are made of one are such: `Depicts.exists_spells`,
`Statement.exists_states`.
-/

namespace Debundle

open Attempt Lexer

/-- The word that a loop starts with. -/
def loopWord? : Kind → Option String
  | .forStatement | .forInStatement | .forOfStatement => some "for"
  | .whileStatement => some "while"
  | .withStatement => some "with"
  | _ => none

/-- Kinds of nodes with statements inside. -/
def compoundKinds : List Kind :=
  [.blockStatement, .ifStatement, .forStatement, .forInStatement, .forOfStatement, .whileStatement,
    .doWhileStatement, .withStatement, .labeledStatement]

theorem headWords_of_loopWord {kind : Kind} {word : String} (hword : loopWord? kind = some word) :
    word ∈ headWords ∧ word ∈ loopWords := by
  unfold loopWord? at hword
  split at hword <;> cases hword <;> decide

namespace Printer

variable {node : Value} {printer : Printer node} {level : Int}

def eachHead (printer : Printer node) (keyword : String) (strength : Nat) (level : Int) :
    Except Fault String := do
  let left ← printer.loopClause (some (← node.require "left")) level
  let right ← printer.expressionAt "right" strength level
  return left.display ++ " " ++ keyword ++ " " ++ right.display

/-- What stands in the parentheses at the head of a loop. -/
def loopHead (printer : Printer node) (level : Int) : Except Fault String :=
  match node.kind with
  | .forStatement => do
    let init ← { printer with noIn := true }.loopClause (node.part? "init") level
    let test ← printer.loopClause (node.part? "test") level
    let update ← printer.loopClause (node.part? "update") level
    return init.display ++ ";" ++ (← afterSemicolon test) ++ ";" ++ (← afterSemicolon update)
  | .forInStatement => printer.eachHead "in" Precedence.sequence level
  | .forOfStatement => printer.eachHead "of" Precedence.assignment level
  | .whileStatement => do return (← printer.expressionAt "test" Precedence.sequence level).display
  | _ => do return (← printer.expressionAt "object" Precedence.sequence level).display

variable {text test : String}

/-- A loop is its word, its head in parentheses and its body. -/
theorem statement?_loop {word head : String} {body : Part node}
    (hword : loopWord? node.kind = some word) (hhead : printer.loopHead level = .ok head)
    (hbody : node.require "body" = .ok body) (htext : printer.substatement body level = .ok text) :
    printer.statement? level = some (.ok (word ++ " " ++ parenthesized head ++ text)) := by
  -- The heads are put together by rules of their own, and the body comes last in each of them.
  have hrule : printer.statement? level = some (do
      let head ← printer.loopHead level
      let body ← node.require "body"
      return word ++ " " ++ parenthesized head ++ (← printer.substatement body level)) := by
    unfold loopWord? at hword
    split at hword
    all_goals
      rename_i hkind
      cases hword
    all_goals
      rw [statement?_of_kind hkind rfl]
      simp only [forText, forEach, headed, loopHead, hkind, eachHead, bind_assoc, pure_bind]
    all_goals rfl
  rw [hrule, hhead]
  simp only [ok_bind, hbody, htext]
  rfl

theorem statement?_choice {consequent : Part node} (hkind : node.kind = .ifStatement)
    (hconsequent : node.require "consequent" = .ok consequent)
    (halternate : node.given? "alternate" = none)
    (htest : printer.expressionAt "test" Precedence.sequence level = .ok (.text test))
    (htext : printer.firstBranch consequent false level = .ok text) :
    printer.statement? level = some (.ok ("if" ++ " " ++ parenthesized test ++ text)) := by
  rw [statement?_of_kind hkind rfl]
  simp only [ifText, hconsequent, halternate, htest,
    Option.isSome_none, Bool.false_and, htext, ok_bind]
  rfl

theorem statement?_branch {first second : String} {consequent alternate : Part node}
    (hkind : node.kind = .ifStatement) (hconsequent : node.require "consequent" = .ok consequent)
    (halternate : node.given? "alternate" = some alternate)
    (htest : printer.expressionAt "test" Precedence.sequence level = .ok (.text test))
    (hfirst : printer.firstBranch consequent consequent.value.endsWithOpenIf level = .ok first)
    (hsecond : printer.elseBranch alternate level = .ok second) :
    printer.statement? level = some (.ok ("if" ++ " " ++ parenthesized test ++ first ++
      printer.separator (consequent.value.endsWithOpenIf ||
        consequent.value.kind == .blockStatement) level ++ second)) := by
  rw [statement?_of_kind hkind rfl]
  simp only [ifText, hconsequent, halternate, htest,
    Option.isSome_some, Option.elim_some, Bool.true_and, hfirst, hsecond, ok_bind]
  rfl

theorem statement?_doWhile {body : Part node} (hkind : node.kind = .doWhileStatement)
    (hbody : node.require "body" = .ok body)
    (htest : printer.expressionAt "test" Precedence.sequence level = .ok (.text test))
    (htext : printer.substatement body level = .ok text) :
    printer.statement? level = some (.ok ("do" ++ (text ++
      (printer.separator (body.value.kind == .blockStatement) level ++
        ("while" ++ " " ++ parenthesized test ++ ";"))))) := by
  have hspace : "while " = "while" ++ " " := rfl
  rw [statement?_of_kind hkind rfl]
  simp only [doWhile, hbody, htest, htext, ok_bind]
  rw [hspace]
  simp only [String.append_assoc]
  rfl

theorem statement?_labeled {name : Value} {label : String} {body : Part node}
    (hkind : node.kind = .labeledStatement) (hname : node.lookup "label" = some name)
    (hlabel : name.lookup "name" = some (.text label)) (hbody : node.require "body" = .ok body)
    (htext : printer.statement body level = .ok text) :
    printer.statement? level = some (.ok (label ++ (":" ++ (" " ++ text)))) := by
  obtain ⟨part, hpart, rfl⟩ := Value.require_of_lookup hname
  have hspace : ": " = ":" ++ " " := rfl
  rw [statement?_of_kind hkind rfl]
  simp only [labeled, hpart, Value.name_eq_ok hlabel, hbody, htext, ok_bind]
  rw [hspace, String.append_assoc, String.append_assoc]
  rfl

theorem statement?_expression {part : Part node} (hkind : node.kind = .expressionStatement)
    (hpart : node.part? "expression" = some part)
    (htext : printer.expression part Precedence.sequence level = .ok (.text text)) :
    printer.statement? level = some (.ok ((if statementStarts.any (startsWith text) then
      parenthesized text else text) ++ ";")) := by
  rw [statement?_of_kind hkind rfl]
  simp only [hpart, expressionOf, htext, expressionStatement, Value.asStarting, ok_bind]
  rfl

end Printer

theorem Value.exists_given {whole value : Value} {key : String}
    (hlookup : whole.lookup key = some value) (hnull : value.isNull = false) :
    ∃ part, whole.given? key = some part ∧ part.value = value := by
  obtain ⟨part, hpart, rfl⟩ := exists_part hlookup
  exact ⟨part, Option.filter_eq_some_iff.2 ⟨hpart, by rw [hnull]; rfl⟩, rfl⟩

/-- A piece of a script from the start of a statement to the start of another one. -/
abbrev Lexer.ScansStatements (chars : List Char) (lexemes : List Lexeme) : Prop :=
  Scans .script .operand chars lexemes .operand anyChar

namespace Value

/-- The head of a loop is printed as the same lexemes everywhere. -/
def SpellsHead (style : Style) (noIn : Bool) (node : Value) (lexemes : List Lexeme) : Prop :=
  ∀ level, ∃ text after, (node.printerIn style noIn).loopHead level = .ok text ∧
    Scans .script .operand text.toList lexemes after closes

/-- A statement is printed as the same lexemes everywhere. -/
def States (style : Style) (noIn : Bool) (node : Value) (lexemes : List Lexeme) : Prop :=
  ∀ level, ∃ text, (node.print style noIn).statement level = .ok text ∧
    ScansStatements text.toList lexemes

end Value

namespace Statement

/-- A tree is made of the nodes of a statement. -/
inductive Depicts (style : Style) (noIn : Bool) : Statement → Value → Prop where
  | simple {node : Value} {lexemes : List Lexeme} :
      node.kind ∉ compoundKinds → node.States style noIn lexemes → IsSimple lexemes →
      Depicts style noIn (.simple lexemes) node
  | block {node : Value} {items : List (Statement × Value)} :
      node.kind = .blockStatement → node.lookup "body" = some (.array (items.map Prod.snd)) →
      (∀ item ∈ items, Depicts style noIn item.1 item.2) →
      Depicts style noIn (.block (items.map Prod.fst)) node
  | choice {node condition consequent : Value} {test : List Lexeme} {first : Statement} :
      node.kind = .ifStatement → node.lookup "test" = some condition →
      condition.Spells style noIn Precedence.sequence test → Closed [] test →
      node.lookup "consequent" = some consequent → Depicts style noIn first consequent →
      node.given? "alternate" = none → Depicts style noIn (.choice test first) node
  | branch {node condition consequent alternate : Value} {test : List Lexeme}
      {first second : Statement} :
      node.kind = .ifStatement → node.lookup "test" = some condition →
      condition.Spells style noIn Precedence.sequence test → Closed [] test →
      node.lookup "consequent" = some consequent → Depicts style noIn first consequent →
      node.lookup "alternate" = some alternate → alternate.isNull = false →
      Depicts style noIn second alternate → Depicts style noIn (.branch test first second) node
  | loop {node inner : Value} {word : String} {head : List Lexeme} {body : Statement} :
      loopWord? node.kind = some word → node.SpellsHead style noIn head → Closed [] head →
      node.lookup "body" = some inner → Depicts style noIn body inner →
      Depicts style noIn (.headed word head body) node
  | doWhile {node condition inner : Value} {test : List Lexeme} {body : Statement} :
      node.kind = .doWhileStatement → node.lookup "body" = some inner →
      Depicts style noIn body inner → node.lookup "test" = some condition →
      condition.Spells style noIn Precedence.sequence test → Closed [] test →
      Depicts style noIn (.doWhile body test) node
  | labeled {node name inner : Value} {label : String} {body : Statement} :
      node.kind = .labeledStatement → node.lookup "label" = some name →
      name.lookup "name" = some (.text label) → isWord label = true → label ∉ reservedWords →
      node.lookup "body" = some inner → Depicts style noIn body inner →
      Depicts style noIn (.labeled label body) node

end Statement

/-! ### Expressions as statements -/

theorem opener_word {word : String} {rest : List Lexeme}
    (hword : word ∉ "if" :: "do" :: "else" :: loopWords)
    (hrest : rest.head? ≠ some (.mark ":")) : opener (.word word :: rest) = .simple := by
  simp only [List.mem_cons, not_or] at hword
  simp [opener, Lexeme.opener, hword, hrest]

/-- An expression opens no statement of another kind.  A colon behind its first word would make
a label of it. -/
theorem Derives.opener_eq {level : Nat} {lexemes rest : List Lexeme} {expr : Expr}
    (hderives : Derives level lexemes expr) (hrest : rest.head? ≠ some (.mark ":")) :
    (lexemes ++ rest).head? ≠ some (.mark ":") ∧ opener (lexemes ++ rest) = .simple := by
  have hopeners : ∀ word ∈ "if" :: "do" :: "else" :: loopWords,
      word ∈ reservedWords ∧ word ∉ endWords := by decide
  induction hderives generalizing rest with
  | lower _ _ ih => exact ih hrest
  | name hreserved => exact ⟨by simp, opener_word (fun hmem => hreserved (hopeners _ hmem).1) hrest⟩
  | self => exact ⟨by simp, opener_word (by decide) hrest⟩
  | constant hconstant =>
    exact ⟨by simp, opener_word
      (fun hmem => (hopeners _ hmem).2 (List.mem_cons_of_mem _ hconstant)) hrest⟩
  | literal => exact ⟨by simp, rfl⟩
  | group _ _ => exact ⟨by simp, rfl⟩
  | array _ _ _ => exact ⟨by simp, rfl⟩
  | member _ ih =>
    rw [List.append_assoc]
    exact ih (by simp)
  | index _ _ ih _ =>
    rw [List.append_assoc, List.append_assoc]
    exact ih (by simp)
  | call _ _ _ ih _ =>
    rw [List.append_assoc, List.append_assoc]
    exact ih (by simp)
  | @updateAfter op _ _ _ _ ih =>
    rw [List.append_assoc]
    exact ih (by cases op <;> simp [Operator.lexeme])
  | @updateFront op _ _ _ _ _ => cases op <;> exact ⟨by simp [Operator.lexeme], rfl⟩
  | @unary op _ _ _ ih =>
    cases op <;> first
      | exact ⟨by simp [Operator.lexeme], rfl⟩
      | exact ⟨by simp [Operator.lexeme], opener_word (by decide) (ih hrest).1⟩
  | @binary op _ _ _ _ _ _ ih _ =>
    rw [List.append_assoc]
    exact ih (by cases op <;> simp [Operator.lexeme])
  | conditional _ _ _ ih _ _ =>
    rw [List.append_assoc, List.append_assoc]
    exact ih (by simp)
  | @assign op _ _ _ _ _ _ _ ih _ =>
    rw [List.append_assoc]
    exact ih (by cases op <;> simp [Operator.lexeme])
  | sequence _ _ hseparated ih =>
    generalize hmap : List.map Prod.fst _ = shape at hseparated
    cases hseparated with
    | last item =>
      obtain ⟨first, hfirst, rfl⟩ := List.mem_map.1 (hmap ▸ List.mem_cons_self)
      exact ih first hfirst hrest
    | item item _ =>
      obtain ⟨first, hfirst, rfl⟩ := List.mem_map.1 (hmap ▸ List.mem_cons_self)
      rw [List.append_assoc]
      exact ih first hfirst (by simp [Lexeme.comma])

/-! ### Texts of statements -/

theorem Value.statement_of_statement? {style : Style} {noIn : Bool} {node : Value} {level : Int}
    {text : String}
    (hstatement : (node.printerIn style noIn).statement? level = some (.ok text)) :
    (node.print style noIn).statement level = .ok text := by
  simp only [Value.print_eq, Printer.rendition, Printer.asStatement, hstatement]

namespace Lexer.Scans

variable {lexemes : List Lexeme} {chars : List Char}

/-- Blanks in front of a statement make no difference. -/
theorem behind_blank {blanks : List Char} (hblanks : blanks.all isBlank = true)
    (hscans : ScansStatements chars lexemes) :
    ScansStatements (blanks ++ chars) lexemes :=
  (blank .operand hblanks).append_any hscans

/-- Statements on lines of their own. -/
theorem lines {texts : List String} {statements : List Statement}
    (htexts : List.Forall₂ (fun text statement =>
      ScansStatements (String.toList text) (Statement.lexemes statement))
        texts statements) :
    ScansStatements ("\n".intercalate texts).toList (Statement.allLexemes statements) := by
  induction htexts with
  | nil => exact blank .operand rfl
  | @cons text statement texts statements hfirst hrest ih =>
    rw [Statement.allLexemes]
    cases hrest with
    | nil =>
      rw [Statement.allLexemes, List.append_nil]
      exact hfirst
    | cons _ _ =>
      rw [String.intercalate_cons_cons, String.toList_append, String.toList_append,
        List.append_assoc]
      exact hfirst.append_any (behind_blank rfl ih)

/-- Statements in braces. -/
theorem braces (hscans : ScansStatements chars lexemes) :
    ScansStatements ('\x7b' :: (chars ++ ['\x7d']))
      (.mark "\x7b" :: (lexemes ++ [.mark "\x7d"])) := by
  have hbracketed : ScansStatements ((opening .brace).toList ++ chars ++ (closing .brace).toList)
      (.mark "\x7b" :: (lexemes ++ [.mark "\x7d"])) :=
    bracketed .operand Bracket.noConfusion hscans fun _ _ => rfl
  exact hbracketed

end Lexer.Scans

section Printing

variable {style : Style} {noIn : Bool} {node : Value} {statements : List Statement}
  (hindent : style.indent.toList.all isBlank = true)

include hindent in
theorem exists_lines {parts : List (Part node)}
    (hparts : List.Forall₂ (fun (part : Part node) (statement : Statement) =>
      part.value.States style noIn statement.lexemes) parts statements) (level : Int) :
    ∃ text, (node.printerIn style noIn).lines parts level = .ok text ∧
      ScansStatements text.toList (Statement.allLexemes statements) := by
  obtain ⟨texts, hprints, hscans⟩ : ∃ texts : List String,
      List.Forall₂ (fun part text => (do
        return (node.printerIn style noIn).pad level ++
          (← (node.printerIn style noIn).statement part level)) = Except.ok text) parts texts ∧
      List.Forall₂ (fun text statement =>
        ScansStatements (String.toList text) (Statement.lexemes statement))
          texts statements := by
    induction hparts with
    | nil => exact ⟨[], .nil, .nil⟩
    | @cons part statement parts statements hpart _ ih =>
      obtain ⟨text, hprint, hscans⟩ := hpart level
      obtain ⟨texts, hrest, hmore⟩ := ih
      have hstatement : (node.printerIn style noIn).statement part level = .ok text := hprint
      refine ⟨(style.pad level ++ text) :: texts, .cons ?_ hrest, .cons ?_ hmore⟩
      · rw [hstatement]
        rfl
      · rw [String.toList_append]
        exact hscans.behind_blank (all_isBlank_pad hindent level)
  refine ⟨"\n".intercalate texts, ?_, Scans.lines hscans⟩
  rw [Printer.lines, mapM_eq_ok_iff.2 hprints]
  rfl

include hindent in
/-- What statements in braces are printed as. -/
theorem exists_braced {parts : List (Part node)}
    (hparts : List.Forall₂ (fun (part : Part node) (statement : Statement) =>
      part.value.States style noIn statement.lexemes) parts statements) (level : Int) :
    ∃ text, (node.printerIn style noIn).braced parts level = .ok text ∧
      ScansStatements text.toList (Statement.block statements).lexemes := by
  obtain ⟨text, hlines, hscans⟩ := exists_lines hindent hparts (level + 1)
  cases hparts with
  | nil =>
    refine ⟨"\x7b\x7d", rfl, ?_⟩
    rw [Statement.lexemes, Statement.allLexemes]
    exact (@Scans.blank .script [] .operand rfl).braces
  | cons _ _ =>
    refine ⟨"\x7b\n" ++ text ++ "\n" ++ style.pad level ++ "\x7d", ?_, ?_⟩
    · simp only [Printer.braced, List.isEmpty_cons, Bool.false_eq_true, if_false, hlines]
      rfl
    · have hpad := @Scans.blank .script _ .operand (all_isBlank_pad hindent level)
      have hline := @Scans.blank .script ['\n'] .operand rfl
      have hinner := (hline.append_any hscans).append_any (hline.append_any hpad)
      rw [Statement.lexemes]
      have hbraces := hinner.braces
      simpa using hbraces

/-- A text that may stand right behind a word. -/
structure FollowsWord (text : String) (lexemes : List Lexeme) : Prop where
  starts : ∃ char rest, text.toList = char :: rest ∧ isWordEnd char = true
  scans : ScansStatements text.toList lexemes

namespace FollowsWord

variable {text : String} {lexemes : List Lexeme}

theorem of_blank {blank : String} (hblank : blank ∈ [" ", "\n"])
    (hscans : ScansStatements text.toList lexemes) :
    FollowsWord (blank ++ text) lexemes := by
  obtain ⟨char, hchar, hspace, hend⟩ :
      ∃ char, blank.toList = [char] ∧ isBlank char = true ∧ isWordEnd char = true := by
    obtain rfl | hblank := List.mem_cons.1 hblank
    · exact ⟨' ', rfl, by decide, by decide⟩
    · cases List.mem_singleton.1 hblank
      exact ⟨'\n', rfl, by decide, by decide⟩
  have hblanks : [char].all isBlank = true := by rw [List.all_cons, hspace, List.all_nil]; rfl
  refine ⟨⟨char, text.toList, ?_, hend⟩, ?_⟩
  · rw [String.toList_append, hchar, List.singleton_append]
  · rw [String.toList_append, hchar]
    exact hscans.behind_blank hblanks

theorem append_left {more : String} {others : List Lexeme} (hfirst : FollowsWord text lexemes)
    (hsecond : ScansStatements more.toList others) :
    FollowsWord (text ++ more) (lexemes ++ others) where
  starts := by
    obtain ⟨char, rest, htext, hend⟩ := hfirst.starts
    exact ⟨char, rest ++ more.toList, by rw [String.toList_append, htext, List.cons_append], hend⟩
  scans := by
    rw [String.toList_append]
    exact hfirst.scans.append_any hsecond

/-- A word in front of a statement. -/
theorem scans_word (hfollows : FollowsWord text lexemes) {word : String}
    (hword : isWord word = true) (hhead : word ∉ headWords)
    (hafter : goalAfter .operand (.word word) = .operand) :
    ScansStatements (word ++ text).toList (.word word :: lexemes) := by
  obtain ⟨char, rest, htext, hend⟩ := hfollows.starts
  have hfirst := @Scans.word .script .operand word hword (.inr hhead)
  have hrest := hfollows.scans
  rw [hafter] at hfirst
  rw [String.toList_append]
  rw [htext] at hrest ⊢
  exact hfirst.append_cons hrest hend

end FollowsWord

namespace Statement

variable {statement : Statement}

/-- A tree is printed as the statement that it depicts, on its own and inside another one. -/
structure Shown (style : Style) (noIn : Bool) (statement : Statement) (node : Value) : Prop where
  endsOpen_eq : node.endsWithOpenIf = statement.endsOpen
  states : node.States style noIn statement.braced.lexemes
  places : ∀ (outer : Value) (part : Part outer), part.value = node → ∀ level,
    ∃ text, (outer.printerIn style noIn).substatement part level = .ok text ∧
      FollowsWord text statement.braced.lexemes

variable {lexemes : List Lexeme}

include hindent in
/-- A statement that is no block stands on the next line. -/
theorem places_of_states (hkind : node.kind ≠ .blockStatement)
    (hstates : node.States style noIn lexemes)
    (outer : Value) (part : Part outer) (hvalue : part.value = node) (level : Int) :
    ∃ text, (outer.printerIn style noIn).substatement part level = .ok text ∧
      FollowsWord text lexemes := by
  subst hvalue
  obtain ⟨text, hprint, hscans⟩ := hstates (level + 1)
  have hstatement : (outer.printerIn style noIn).statement part (level + 1) = .ok text := hprint
  have hpadded : ScansStatements (style.pad (level + 1) ++ text).toList lexemes := by
    rw [String.toList_append]
    exact hscans.behind_blank (all_isBlank_pad hindent _)
  refine ⟨"\n" ++ (style.pad (level + 1) ++ text), ?_, .of_blank (by decide) hpadded⟩
  simp only [Printer.substatement, if_neg hkind, hstatement, ok_bind]
  rw [← String.append_assoc]
  rfl

include hindent in
theorem Shown.of_states (hkind : node.kind ≠ .blockStatement)
    (hopen : node.endsWithOpenIf = statement.endsOpen)
    (hstates : node.States style noIn statement.braced.lexemes) :
    Shown style noIn statement node :=
  ⟨hopen, hstates, places_of_states hindent hkind hstates⟩

include hindent in
theorem Shown.simple (hkind : node.kind ∉ compoundKinds)
    (hstates : node.States style noIn lexemes) :
    Shown style noIn (.simple lexemes) node := by
  refine .of_states hindent (fun hblock => hkind (hblock ▸ by decide)) ?_ hstates
  rw [Value.endsWithOpenIf]
  split
  case h_8 => rfl
  all_goals
    rename_i hcompound
    exact absurd (hcompound ▸ by decide) hkind

theorem forall₂_states {items : List (Statement × Value)} {parts : List (Part node)}
    (hvalues : parts.map Part.value = items.map Prod.snd)
    (hitems : ∀ item ∈ items, Shown style noIn item.1 item.2) :
    List.Forall₂ (fun (part : Part node) (statement : Statement) =>
      part.value.States style noIn statement.lexemes) parts (allBraced (items.map Prod.fst)) := by
  induction items generalizing parts with
  | nil =>
    cases List.map_eq_nil_iff.1 hvalues
    exact .nil
  | cons item items ih =>
    rw [List.forall_mem_cons] at hitems
    obtain ⟨part, rest, rfl, hvalue, hrest⟩ := List.map_eq_cons_iff.1 hvalues
    have hstates := hitems.1.states
    rw [← hvalue] at hstates
    exact .cons hstates (ih hrest hitems.2)

include hindent in
theorem Shown.block {items : List (Statement × Value)} (hkind : node.kind = .blockStatement)
    (hbody : node.lookup "body" = some (.array (items.map Prod.snd)))
    (hitems : ∀ item ∈ items, Shown style noIn item.1 item.2) :
    Shown style noIn (.block (items.map Prod.fst)) node where
  endsOpen_eq := by
    rw [Value.endsWithOpenIf, hkind]
    rfl
  states level := by
    obtain ⟨parts, hparts, hvalues⟩ := Value.listAt_of_array hbody
    obtain ⟨text, htext, hscans⟩ := exists_braced hindent (forall₂_states hvalues hitems) level
    refine ⟨text, Value.statement_of_statement? ?_, hscans⟩
    rw [Printer.statement?_of_kind hkind rfl, hparts, ok_bind, htext]
  places outer part hvalue level := by
    subst hvalue
    obtain ⟨parts, hparts, hvalues⟩ := Part.listAt_of_array hbody
    obtain ⟨text, htext, hscans⟩ := exists_braced hindent (forall₂_states hvalues hitems) level
    refine ⟨" " ++ text, ?_, .of_blank (by decide) hscans⟩
    simp only [Printer.substatement, if_pos hkind, Printer.block, hparts, ok_bind, htext]
    rfl

section Conditional

variable {condition consequent : Value} {test : List Lexeme} {first second : Statement}

include hindent in
/-- What the first branch of an `if` is printed as, in braces or not. -/
theorem exists_firstBranch {part : Part node} (hfirst : Shown style noIn first part.value)
    (needsBraces : Bool) (level : Int) :
    ∃ text, (node.printerIn style noIn).firstBranch part needsBraces level = .ok text ∧
      FollowsWord text (if needsBraces then .block [first.braced] else first.braced).lexemes := by
  cases needsBraces with
  | false => exact hfirst.places node part rfl level
  | true =>
    obtain ⟨text, htext, hscans⟩ :=
      exists_braced hindent (.cons hfirst.states .nil : List.Forall₂ _ [part] _) level
    refine ⟨" " ++ text, ?_, .of_blank (by decide) hscans⟩
    simp only [Printer.firstBranch, if_true, htext]
    rfl

/-- What the `else` of an `if` is printed as. -/
theorem exists_elseBranch {part : Part node} (hsecond : Shown style noIn second part.value)
    (level : Int) :
    ∃ text, (node.printerIn style noIn).elseBranch part level = .ok text ∧
      ScansStatements text.toList (.word "else" :: second.braced.lexemes) := by
  -- Another `if` stays on the line, and does not pass through the rule for statements inside.
  by_cases hkind : part.value.kind = .ifStatement
  · obtain ⟨text, htext, hscans⟩ := hsecond.states level
    have hstatement : (node.printerIn style noIn).statement part level = .ok text := htext
    have hfollows : FollowsWord (" " ++ text) second.braced.lexemes := .of_blank (by decide) hscans
    refine ⟨"else" ++ (" " ++ text), ?_, hfollows.scans_word (by decide) (by decide) (by decide)⟩
    simp only [Printer.elseBranch, if_pos hkind, hstatement, ← String.append_assoc]
    rfl
  · obtain ⟨text, htext, hfollows⟩ := hsecond.places node part rfl level
    refine ⟨"else" ++ text, ?_, hfollows.scans_word (by decide) (by decide) (by decide)⟩
    simp only [Printer.elseBranch, if_neg hkind, htext]
    rfl

/-- The word and the condition in front of a statement. -/
theorem scans_headed {word head text : String} {after : Goal} {inner lexemes : List Lexeme}
    (hword : word ∈ headWords) (hhead : Scans .script .operand head.toList inner after closes)
    (htext : ScansStatements text.toList lexemes) :
    ScansStatements (word ++ " " ++ parenthesized head ++ text).toList
      (.word word :: (grouped inner ++ lexemes)) := by
  have hchars : (word ++ " " ++ parenthesized head ++ text).toList =
      word.toList ++ ' ' :: '(' :: head.toList ++ [')'] ++ text.toList := by
    simp [parenthesized]
  rw [hchars]
  exact (Scans.head hword hhead rfl).append_any htext

include hindent in
theorem Shown.choice (hkind : node.kind = .ifStatement)
    (hcondition : node.lookup "test" = some condition)
    (htest : condition.Spells style noIn Precedence.sequence test)
    (hconsequent : node.lookup "consequent" = some consequent)
    (hfirst : Shown style noIn first consequent) (halternate : node.given? "alternate" = none) :
    Shown style noIn (.choice test first) node := by
  refine .of_states hindent (by rw [hkind]; exact Kind.noConfusion) ?_ fun level => ?_
  · rw [Value.endsWithOpenIf, hkind, halternate]
    rfl
  · obtain ⟨part, hpart, rfl⟩ := Value.require_of_lookup hconsequent
    obtain ⟨head, after, hhead, hscans⟩ := htest level
    obtain ⟨text, htext, hfollows⟩ := exists_firstBranch hindent hfirst false level
    refine ⟨"if" ++ " " ++ parenthesized head ++ text, Value.statement_of_statement? ?_, ?_⟩
    · exact Printer.statement?_choice hkind hpart halternate
        (Value.expressionAt_printerIn hcondition hhead) htext
    · rw [braced, Statement.lexemes]
      exact scans_headed (by decide) hscans hfollows.scans

include hindent in
theorem Shown.branch {alternate : Value} (hkind : node.kind = .ifStatement)
    (hcondition : node.lookup "test" = some condition)
    (htest : condition.Spells style noIn Precedence.sequence test)
    (hconsequent : node.lookup "consequent" = some consequent)
    (hfirst : Shown style noIn first consequent)
    (halternate : node.lookup "alternate" = some alternate) (hnull : alternate.isNull = false)
    (hsecond : Shown style noIn second alternate) :
    Shown style noIn (.branch test first second) node := by
  obtain ⟨other, hother, rfl⟩ := Value.exists_given halternate hnull
  refine .of_states hindent (by rw [hkind]; exact Kind.noConfusion) ?_ fun level => ?_
  · rw [Value.endsWithOpenIf, hkind, hother]
    exact hsecond.endsOpen_eq
  · obtain ⟨part, hpart, rfl⟩ := Value.require_of_lookup hconsequent
    obtain ⟨head, after, hhead, hscans⟩ := htest level
    obtain ⟨text, htext, hfollows⟩ := exists_firstBranch hindent hfirst first.endsOpen level
    obtain ⟨last, hlast, helse⟩ := exists_elseBranch hsecond level
    rw [← hfirst.endsOpen_eq] at htext
    refine ⟨"if" ++ " " ++ parenthesized head ++ (text ++ ((node.printerIn style noIn).separator
      (part.value.endsWithOpenIf || part.value.kind == .blockStatement) level ++ last)),
        Value.statement_of_statement? ?_, ?_⟩
    · rw [← String.append_assoc, ← String.append_assoc]
      exact Printer.statement?_branch hkind hpart hother
        (Value.expressionAt_printerIn hcondition hhead) htext hlast
    · rw [braced, Statement.lexemes]
      refine scans_headed (by decide) hscans ?_
      rw [String.toList_append, String.toList_append]
      exact hfollows.scans.append_any (helse.behind_blank (all_isBlank_separator hindent _ level))

end Conditional

section Loops

variable {inner condition : Value} {body : Statement} {test head : List Lexeme}

theorem endsWithOpenIf_of_body (hbody : node.lookup "body" = some inner)
    (hkind : node.kind = .labeledStatement ∨ (loopWord? node.kind).isSome = true) :
    node.endsWithOpenIf = inner.endsWithOpenIf := by
  obtain ⟨part, hpart, rfl⟩ := Value.exists_part hbody
  rw [Value.endsWithOpenIf]
  obtain hkind | hsome := hkind
  · rw [hkind, hpart]
  · obtain ⟨word, hword⟩ := Option.isSome_iff_exists.1 hsome
    unfold loopWord? at hword
    split at hword
    case h_6 => cases hword
    all_goals
      rename_i hkind
      rw [hkind, hpart]

include hindent in
theorem Shown.loop {word : String} (hword : loopWord? node.kind = some word)
    (hhead : node.SpellsHead style noIn head)
    (hinner : node.lookup "body" = some inner) (hbody : Shown style noIn body inner) :
    Shown style noIn (.headed word head body) node := by
  refine .of_states hindent ?_ ?_ fun level => ?_
  · intro hblock
    rw [hblock] at hword
    cases hword
  · rw [endsWithOpenIf_of_body hinner (.inr (hword ▸ rfl))]
    exact hbody.endsOpen_eq
  · obtain ⟨part, hpart, rfl⟩ := Value.require_of_lookup hinner
    obtain ⟨written, after, hwritten, hscans⟩ := hhead level
    obtain ⟨text, htext, hfollows⟩ := hbody.places node part rfl level
    refine ⟨_, Value.statement_of_statement?
      (Printer.statement?_loop hword hwritten hpart htext), ?_⟩
    rw [braced, Statement.lexemes]
    exact scans_headed (headWords_of_loopWord hword).1 hscans hfollows.scans

include hindent in
theorem Shown.doWhile (hkind : node.kind = .doWhileStatement)
    (hinner : node.lookup "body" = some inner)
    (hbody : Shown style noIn body inner) (hcondition : node.lookup "test" = some condition)
    (htest : condition.Spells style noIn Precedence.sequence test) :
    Shown style noIn (.doWhile body test) node := by
  refine .of_states hindent (by rw [hkind]; exact Kind.noConfusion) ?_ fun level => ?_
  · rw [Value.endsWithOpenIf, hkind]
    rfl
  · obtain ⟨part, hpart, rfl⟩ := Value.require_of_lookup hinner
    obtain ⟨written, after, hwritten, hscans⟩ := htest level
    obtain ⟨text, htext, hfollows⟩ := hbody.places node part rfl level
    have hsemicolon : ScansStatements ";".toList [.mark ";"] := Scans.divider (by decide) .operand
    have hwhile := (scans_headed (by decide : "while" ∈ headWords) hscans hsemicolon).behind_blank
      (@all_isBlank_separator style noIn node hindent (part.value.kind == .blockStatement) level)
    rw [← String.toList_append] at hwhile
    refine ⟨_, Value.statement_of_statement? (Printer.statement?_doWhile hkind hpart
      (Value.expressionAt_printerIn hcondition hwritten) htext), ?_⟩
    rw [braced, Statement.lexemes]
    exact (hfollows.append_left hwhile).scans_word (by decide) (by decide) (by decide)

theorem scans_label {label text : String} {lexemes : List Lexeme} (hword : isWord label = true)
    (hreserved : label ∉ reservedWords)
    (hscans : ScansStatements text.toList lexemes) :
    ScansStatements (label ++ (":" ++ (" " ++ text))).toList
      (.word label :: .mark ":" :: lexemes) := by
  have hcolon : Scans .script .operator [':'] [.mark ":"] .operand (markStops ":") :=
    Scans.mark (by decide) (by decide) (.inl (by decide)) rfl
  have hspaced :=
    hcolon.append_cons ((Scans.space .operand).append_any hscans) (markStops_space ":")
  rw [String.toList_append, String.toList_append, String.toList_append]
  exact (Scans.name hword hreserved).append_cons hspaced (by decide)

include hindent in
theorem Shown.labeled {name : Value} {label : String} (hkind : node.kind = .labeledStatement)
    (hname : node.lookup "label" = some name) (hlabel : name.lookup "name" = some (.text label))
    (hword : isWord label = true) (hreserved : label ∉ reservedWords)
    (hinner : node.lookup "body" = some inner) (hbody : Shown style noIn body inner) :
    Shown style noIn (.labeled label body) node := by
  refine .of_states hindent (by rw [hkind]; exact Kind.noConfusion) ?_ fun level => ?_
  · rw [endsWithOpenIf_of_body hinner (.inl hkind)]
    exact hbody.endsOpen_eq
  · obtain ⟨part, hpart, rfl⟩ := Value.require_of_lookup hinner
    obtain ⟨text, htext, hscans⟩ := hbody.states level
    have hprint : (node.printerIn style noIn).statement part level = .ok text := htext
    refine ⟨_, Value.statement_of_statement?
      (Printer.statement?_labeled hkind hname hlabel hpart hprint), ?_⟩
    rw [braced, Statement.lexemes]
    exact scans_label hword hreserved hscans

end Loops

include hindent in
theorem shown_of_depicts (hdepicts : Depicts style noIn statement node) :
    Shown style noIn statement node := by
  induction hdepicts with
  | simple hkind hstates _ => exact .simple hindent hkind hstates
  | block hkind hbody _ ih => exact .block hindent hkind hbody ih
  | choice hkind hcondition htest _ hconsequent _ halternate ih =>
    exact .choice hindent hkind hcondition htest hconsequent ih halternate
  | branch hkind hcondition htest _ hconsequent _ halternate hnull _ hfirst hsecond =>
    exact .branch hindent hkind hcondition htest hconsequent hfirst halternate hnull hsecond
  | loop hword hhead _ hinner _ ih => exact .loop hindent hword hhead hinner ih
  | doWhile hkind hinner _ hcondition htest _ ih =>
    exact .doWhile hindent hkind hinner ih hcondition htest
  | labeled hkind hname hlabel hword hreserved hinner _ ih =>
    exact .labeled hindent hkind hname hlabel hword hreserved hinner ih

theorem isProper_of_depicts (hdepicts : Depicts style noIn statement node) :
    statement.IsProper := by
  induction hdepicts with
  | simple _ _ hsimple => exact .simple hsimple
  | block _ _ _ ih => exact .block (List.forall_mem_map.2 ih)
  | choice _ _ _ hclosed _ _ _ ih => exact .choice hclosed ih
  | branch _ _ _ hclosed _ _ _ _ _ hfirst hsecond => exact .branch hclosed hfirst hsecond
  | loop hword _ hclosed _ _ ih => exact .headed (headWords_of_loopWord hword).2 hclosed ih
  | doWhile _ _ _ _ _ hclosed ih => exact .doWhile hclosed ih
  | labeled _ _ _ _ hreserved _ _ ih => exact .labeled hreserved ih

/-- Every statement is printed, and what is read back is that statement and no other one, with
a block around each first branch that would have taken the `else` behind it. -/
theorem print_keeps_else (hindent : style.indent.toList.all isBlank = true)
    (hdepicts : Depicts style noIn statement node) (level : Int) :
    ∃ text lexemes, (node.print style noIn).statement level = .ok text ∧
      lexemes? text = some lexemes ∧
      ∀ other, Reads (.one other) lexemes [] ↔ other = statement.braced := by
  obtain ⟨text, hprint, hscans⟩ := (shown_of_depicts hindent hdepicts).states level
  exact ⟨text, _, hprint, hscans.lexFrom_eq, (isProper_of_depicts hdepicts).reads_iff⟩

/-- A statement that is an operator expression. -/
theorem exists_states {expression : Value} {expr : Expr}
    (hkind : node.kind = .expressionStatement)
    (hexpression : node.lookup "expression" = some expression)
    (hdepicts : Debundle.Depicts expr expression) :
    ∃ text lexemes, (∀ level, (node.print style false).statement level = .ok text) ∧
      lexemes? text = some lexemes ∧ node.States style false lexemes ∧ IsSimple lexemes := by
  obtain ⟨part, hpart, rfl⟩ := Value.exists_part hexpression
  obtain ⟨text, lexemes, hprints, -, hspells, hderives, hclosed⟩ :=
    hdepicts.exists_spells style Precedence.sequence
  obtain ⟨_, after, hwritten, hscans⟩ := hspells 0
  cases (hprints 0).symm.trans hwritten
  -- A text that looks like the start of another statement stands in parentheses.
  obtain ⟨found, last, hwhole, hfound, hopener⟩ : ∃ found last,
      Scans .script .operand (if statementStarts.any (startsWith text) then parenthesized text
        else text).toList found last closes ∧
      Closed [.mark ";"] found ∧ Debundle.opener (found ++ [.mark ";"]) = .simple := by
    split
    · exact ⟨grouped lexemes, .operator, (hscans.parenthesized rfl .operand).mono fun _ _ => rfl,
        closed_grouped (hclosed.mono (List.nil_subset _)), rfl⟩
    · exact ⟨lexemes, after, hscans, hclosed, (hderives.opener_eq (by simp)).2⟩
  have hsemicolon : Scans .script last [';'] [.mark ";"] .operand anyChar :=
    @Scans.divider _ ";" (by decide) last
  have hlexemes := hwhole.append_cons hsemicolon rfl
  have hprint := fun level => @Value.statement_of_statement? style false node level _
    (Printer.statement?_expression hkind hpart (hprints level))
  rw [show [';'] = ";".toList from rfl, ← String.toList_append] at hlexemes
  exact ⟨_, _, hprint, hlexemes.lexFrom_eq, fun level => ⟨_, hprint level, hlexemes⟩,
    ⟨found, rfl, hfound⟩, hopener⟩

/-- The head of a `while` or a `with` is an expression. -/
theorem spellsHead_of_spells {key : String} {value : Value}
    (hkind : (node.kind, key) ∈ [(.whileStatement, "test"), (.withStatement, "object")])
    (hlookup : node.lookup key = some value)
    (hspells : value.Spells style noIn Precedence.sequence lexemes) :
    node.SpellsHead style noIn lexemes := by
  intro level
  obtain ⟨text, after, hprint, hscans⟩ := hspells level
  refine ⟨text, after, ?_, hscans⟩
  have hhead := Value.expressionAt_printerIn hlookup hprint
  simp only [List.mem_cons, Prod.mk.injEq, List.not_mem_nil, or_false] at hkind
  obtain ⟨hkind, rfl⟩ | ⟨hkind, rfl⟩ := hkind <;>
    · simp only [Printer.loopHead, hkind, hhead, ok_bind]
      rfl

/-- The tree of `if (a) { while (b) if (c) x; } else y;`, where the braces are no node. -/
def hiddenChoice : Value :=
  Build.branchElse (Build.name "a")
    (Build.whileLoop (Build.name "b")
      (Build.branch (Build.name "c") (Build.perform (Build.name "x"))))
    (Build.perform (Build.name "y"))

theorem depicts_hiddenChoice : Depicts {} false
    (.branch [.word "a"] (.headed "while" [.word "b"]
      (.choice [.word "c"] (.simple [.word "x", .mark ";"]))) (.simple [.word "y", .mark ";"]))
    hiddenChoice := by
  have hname : ∀ {text}, isWord text = true → text ∉ reservedWords →
      Debundle.Depicts (.name text) (Build.name text) :=
    fun hword hreserved => .name rfl rfl hword hreserved
  have htest : ∀ text ∈ ["a", "b", "c"], (Build.name text).Spells {} false 0 [.word text] := by
    have hlexemes : ∀ text ∈ ["a", "b", "c"], isWord text = true ∧ text ∉ reservedWords ∧
        ((Build.name text).print {} false).expression 0 0 = .ok (.text text) ∧
        lexemes? text = some [.word text] := by decide +kernel
    intro text hmem
    obtain ⟨hword, hreserved, hprint, hfound⟩ := hlexemes text hmem
    exact (hname hword hreserved).spells text hprint hfound
  have hsimple : ∀ text ∈ ["x", "y"], Depicts {} false (.simple [.word text, .mark ";"])
      (Build.perform (Build.name text)) := by
    have hlexemes : ∀ text ∈ ["x", "y"], isWord text = true ∧ text ∉ reservedWords ∧
        ((Build.perform (Build.name text)).print {} false).statement 0 = .ok (text ++ ";") ∧
        lexemes? (text ++ ";") = some [.word text, .mark ";"] := by decide +kernel
    intro text hmem
    obtain ⟨hword, hreserved, hprint, hfound⟩ := hlexemes text hmem
    obtain ⟨written, lexemes, hwritten, hlexed, hstates, hsimple⟩ :=
      @exists_states {} (Build.perform (Build.name text)) _ _ rfl rfl (hname hword hreserved)
    cases hprint.symm.trans (hwritten 0)
    cases hfound.symm.trans hlexed
    exact .simple (show Kind.expressionStatement ∉ compoundKinds by decide) hstates hsimple
  have hchoice : Depicts {} false (.choice [.word "c"] (.simple [.word "x", .mark ";"]))
      (Build.branch (Build.name "c") (Build.perform (Build.name "x"))) :=
    .choice rfl rfl (htest "c" (by decide)) (by decide) rfl (hsimple "x" (by decide)) rfl
  have hloop : Depicts {} false
      (.headed "while" [.word "b"] (.choice [.word "c"] (.simple [.word "x", .mark ";"])))
      (Build.whileLoop (Build.name "b")
        (Build.branch (Build.name "c") (Build.perform (Build.name "x")))) :=
    .loop rfl (spellsHead_of_spells List.mem_cons_self rfl (htest "b" (by decide))) (by decide) rfl
      hchoice
  exact .branch rfl rfl (htest "a" (by decide)) (by decide) rfl hloop rfl rfl
    (hsimple "y" (by decide))

theorem print_keeps_else_hiddenChoice :
    (({} : Style).indent.toList.all isBlank = true) ∧
      Depicts {} false
        (.branch [.word "a"] (.headed "while" [.word "b"]
          (.choice [.word "c"] (.simple [.word "x", .mark ";"]))) (.simple [.word "y", .mark ";"]))
        hiddenChoice ∧
      ∃ text lexemes, (hiddenChoice.print {} false).statement 0 = .ok text ∧
        lexemes? text = some lexemes ∧
        ∀ other, Reads (.one other) lexemes [] ↔ other =
          .branch [.word "a"] (.block [.headed "while" [.word "b"]
            (.choice [.word "c"] (.simple [.word "x", .mark ";"]))])
            (.simple [.word "y", .mark ";"]) :=
  ⟨by decide, depicts_hiddenChoice, print_keeps_else rfl depicts_hiddenChoice 0⟩

end Statement

end Printing

end Debundle
