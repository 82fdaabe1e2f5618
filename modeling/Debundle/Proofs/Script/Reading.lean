import Debundle.Proofs.Script.Wording

/-!
# Reading a printed node

What is needed to tell what a node is printed as: its texts are lexemes, indentation is blank, and
its parts are printed as texts of which the surface is known.  The pieces that several rules share
are then printed as such texts, too.
-/

namespace Debundle

open Attempt Lexer

/-- A text in brackets, behind which a statement may start or an expression go on. -/
structure IsGroup (first : Char) (text : String) : Prop where
  starts : text.toList.head? = some first
  piece : ∀ goal later, later ≠ .property → Piece goal text [] later anyChar

variable {text : String} {content : Value} {strength : Nat} {signs : List Sign}
  {contents : List Value}

theorem IsGroup.joins {first : Char} {stops : Char → Bool} (hgroup : IsGroup first text)
    (hstops : stops first = true) : text.toList.head?.any stops = true := by
  rw [hgroup.starts]
  exact hstops

/-- An entry of a list in brackets. -/
def IsEntry (content : Value) : Prop :=
  ∃ text signs, content = .text text ∧ IsItem Anywhere text signs

/-- The key of a property or a method. -/
def IsKey (content : Value) : Prop :=
  ∃ text signs, content = .text text ∧ startsTerm text = true ∧ IsItem Anywhere text signs

theorem IsKey.isEntry (hkey : IsKey content) : IsEntry content := by
  obtain ⟨text, signs, htext, -, hitem⟩ := hkey
  exact ⟨text, signs, htext, hitem⟩

theorem IsWorded.isEntry (hreads : IsWorded strength signs content) : IsEntry content := by
  obtain ⟨text, htext, hworded⟩ := hreads
  exact ⟨text, signs, htext, hworded.item.anywhere⟩

theorem commaSeparated_reads {pieces : List Value} (hpieces : ∀ piece ∈ pieces, IsEntry piece) :
    Yields (fun text => ∃ signs, IsItem Anywhere text signs) (commaSeparated pieces) := by
  obtain ⟨texts, rfl, hitems⟩ : ∃ texts : List String, pieces = texts.map .text ∧
      ∀ text ∈ texts, ∃ signs, IsItem Anywhere text signs := by
    induction pieces with
    | nil => exact ⟨[], rfl, fun _ hmem => absurd hmem List.not_mem_nil⟩
    | cons piece pieces ih =>
      rw [List.forall_mem_cons] at hpieces
      obtain ⟨⟨text, signs, rfl, hitem⟩, hrest⟩ := hpieces
      obtain ⟨texts, rfl, hitems⟩ := ih hrest
      exact ⟨text :: texts, rfl, List.forall_mem_cons.2 ⟨⟨signs, hitem⟩, hitems⟩⟩
  exact ⟨_, Value.commaSeparated_texts texts, Piece.exists_separated isComma_space hitems⟩

/-- Contents that are texts, one for each item. -/
theorem exists_texts {α : Type} {fits : α → String → Prop} {items : List α}
    (hcontents : List.Forall₂ (fun item content => ∃ text, content = .text text ∧ fits item text)
      items contents) :
    ∃ texts : List String, contents = texts.map .text ∧ List.Forall₂ fits items texts := by
  induction hcontents with
  | nil => exact ⟨[], rfl, .nil⟩
  | cons hcontent _ ih =>
    obtain ⟨text, rfl, hfits⟩ := hcontent
    obtain ⟨texts, rfl, hrest⟩ := ih
    exact ⟨text :: texts, rfl, .cons hfits hrest⟩

/-- A text that starts and ends as an expression does. -/
structure IsTerm (signs : List Sign) (text : String) : Prop where
  starts : startsTerm text = true
  piece : Piece .operand text signs .operator ends

theorem Worded.isTerm (hworded : Worded strength signs text) : IsTerm signs text :=
  ⟨hworded.starts, hworded.loose⟩

/-- The texts of expressions with commas between them. -/
theorem separated_reads {α : Type} {items : List α} {signsOf : α → List Sign} (hne : items ≠ [])
    (hcontents : List.Forall₂ (fun item content => ∃ text, content = .text text ∧
      IsTerm (signsOf item) text) items contents) :
    Yields (IsTerm (items.map signsOf).flatten) (commaSeparated contents) := by
  obtain ⟨texts, rfl, hterms⟩ := exists_texts hcontents
  have hitems : List.Forall₂ (IsItem (· = .operator)) texts (items.map signsOf) := by
    rw [List.forall₂_map_right_iff]
    exact hterms.flip.imp fun _ _ hterm => ⟨.operator, rfl, hterm.piece⟩
  refine ⟨_, Value.commaSeparated_texts texts, ?_, ?_⟩
  · cases hterms with
    | nil => exact absurd rfl hne
    | @cons item text items texts hterm hrest =>
      cases texts with
      | nil =>
        rw [String.intercalate_singleton]
        exact hterm.starts
      | cons next texts =>
        rw [String.intercalate_cons_cons]
        exact startsTerm_append (startsTerm_append hterm.starts _) _
  · have htexts : texts ≠ [] := by
      rintro rfl
      exact hne (List.forall₂_nil_right_iff.1 hterms)
    obtain ⟨after, rfl, hpiece⟩ := Piece.separated isComma_space hitems htexts
    exact hpiece

namespace Lexer

/-- A keyword with a space behind it. -/
theorem Piece.keyword (word : String) {goal after : Goal}
    (hword : isWord word = true) (hpermits : goal.permits (.word word) after = true)
    (hsign : ScriptToken.sign? ⟨goal, .word word⟩ = none) :
    Piece goal (word ++ " ") [] after anyChar := by
  have hpiece := (Piece.word hword hpermits).append (Piece.space after) rfl
  rwa [hsign] at hpiece

theorem Goal.permits_after {goal : Goal} {lexeme : Lexeme} (hrole : lexeme.role = .plain) :
    goal.permits lexeme (goal.after lexeme) = true := by
  rw [Goal.permits, hrole]
  simp

theorem ScriptToken.sign?_word {goal : Goal} {word : String} (hin : word ≠ "in") :
    ScriptToken.sign? ⟨goal, .word word⟩ = none := by
  simp [ScriptToken.sign?, hin]

/-- A name that is no reserved word. -/
theorem Piece.name {word : String} (hword : isWord word = true)
    (hreserved : word ∉ reservedWords) : Piece .operand word [] .operator isWordEnd := by
  have hafter : Goal.after .operand (.word word) = .operator := if_pos (.inr (.inl hreserved))
  have hpermits : Goal.permits .operand (.word word) .operator = true := by
    rw [← hafter]
    exact Goal.permits_after rfl
  have hin : word ≠ "in" := by
    rintro rfl
    exact hreserved (by decide)
  have hpiece := Piece.word hword hpermits
  rwa [ScriptToken.sign?_word hin] at hpiece

end Lexer

/-- Indentation is blank, and the texts of those parts of a node that are made of lexemes are
known. -/
structure PartsRead (style : Style) (noIn : Bool) {node : Value} (printer : Printer node) :
    Prop where
  printer_eq : printer = node.printerIn style noIn
  indent : style.indent.toList.all isBlank = true
  expression : ∀ part : Part node, part.value.Legible (.one Kind.phrases) false →
    ∀ noIn strength level,
      Yields (fun content =>
        IsWorded strength ((part.value.surface style noIn level).inPlace strength) content ∧
          IsSolid part.value.isNumeric strength content)
        ((part.value.print style noIn).expression strength level)
  statement : ∀ part : Part node, part.value.Legible (.one Kind.statements) false →
    ∀ noIn level, Yields IsCode ((part.value.print style noIn).statement level)

/-- The node itself is made of lexemes, too. -/
structure Reading (style : Style) (noIn : Bool) (slot : Slot) (isKey : Bool) {node : Value}
    (printer : Printer node) : Prop extends PartsRead style noIn printer where
  legible : node.Legible slot isKey

namespace Value

/-- The signs on the surface of a declarator. -/
def declaratorSigns (style : Style) (noIn : Bool) (level : Int) (declarator : Value) :
    List Sign :=
  declarator.signsAt style noIn level "id" Precedence.assignment ++
    declarator.signsAt style noIn level "init" Precedence.assignment

end Value

namespace Part

open Value

variable {whole : Value} {part : Part whole} {kind : Kind} {kinds inside : List Kind}
  {isKey : Bool} {key : String} (hpart : part.value.Legible (.one inside) isKey)
  (hkind : part.value.kind = kind)
  (hkey : kind.holdsKey (part.value.flag "computed") key = false)
  (style : Style) (noIn : Bool) (level : Int)

include hpart hkind hkey

/-- The expression in a field of a part, and what shows of it. -/
theorem require_shows (hslot : kind.slot key = .one kinds) :
    Yields (fun found => found.value.Legible (.one kinds) false ∧ ∀ strength,
      part.value.signsAt style noIn level key strength =
        (found.value.surface style noIn level).inPlace strength) (part.require key) := by
  obtain ⟨held, hheld, hlegible⟩ := hpart.require_yields hkind hkey hslot
  rw [require, hheld]
  exact .pure ⟨hlegible, signsAt_of_part (require_eq_ok_iff.1 hheld)⟩

theorem given?_shows (hslot : kind.slot key = .optional kinds) :
    Yields (fun found? =>
      (found? = none ∧ ∀ strength, part.value.signsAt style noIn level key strength = []) ∨
        ∃ found, found? = some found ∧ found.value.Legible (.one kinds) false ∧ ∀ strength,
          part.value.signsAt style noIn level key strength =
            (found.value.surface style noIn level).inPlace strength) (part.given? key) := by
  rw [given?, hpart.printable.asRecord]
  rcases hpart.given?_cases hkind hkey hslot with hnone | ⟨held, hheld, hlegible⟩
  · rw [hnone]
    exact .pure (.inl ⟨rfl, signsAt_of_given?_eq_none hnone⟩)
  · rw [hheld]
    exact .pure (.inr ⟨_, rfl, hlegible, signsAt_of_part (Option.filter_eq_some_iff.1 hheld).1⟩)

end Part

namespace PartsRead

open Value Kind

variable {style : Style} {noIn : Bool} {node : Value} {printer : Printer node} {kind : Kind}
  {kinds inside : List Kind} {key : String} {part : Part node} {parts : List (Part node)}
  {strength : Nat} {level : Int} (hreading : PartsRead style noIn printer)

include hreading

theorem pad_blank (level : Int) : (printer.pad level).toList.all isBlank = true := by
  rw [hreading.printer_eq]
  exact all_isBlank_pad hreading.indent level

theorem separator_blank (afterBlock : Bool) :
    (printer.separator afterBlock level).toList.all isBlank = true := by
  rw [hreading.printer_eq]
  exact all_isBlank_separator hreading.indent afterBlock level

theorem expression_reads (hpart : part.value.Legible (.one kinds) false)
    (hkinds : kinds.all phrases.contains = true) :
    Yields (IsWorded strength ((part.value.surface style noIn level).inPlace strength))
      (printer.expression part strength level) :=
  hreading.printer_eq ▸ (hreading.expression part (hpart.refit (mem_of_all hkinds
    hpart.kind_mem)) noIn strength level).mono fun _ hcontent => hcontent.1

/-- Where much strength is asked for, nothing shows. -/
theorem operand_reads (hpart : part.value.Legible (.one kinds) false)
    (hkinds : kinds.all phrases.contains = true) (hstrength : Precedence.unary ≤ strength) :
    Yields (IsWorded strength []) (printer.expression part strength level) := by
  rw [← inPlace_eq_nil hstrength]
  exact hreading.expression_reads hpart hkinds

theorem statement_reads (hpart : part.value.Legible (.one statements) false) :
    Yields IsCode (printer.statement part level) :=
  hreading.printer_eq ▸ hreading.statement part hpart noIn level

/-- Expressions in brackets with commas between them. -/
theorem list_reads (hparts : ∀ part ∈ parts, part.value.Legible (.one kinds) false)
    (hkinds : kinds.all phrases.contains = true) :
    Yields (fun pieces => ∀ piece ∈ pieces, IsEntry piece) (printer.expressions parts level) :=
  .mapM fun part hpart => (hreading.expression_reads (hparts part hpart) hkinds).mono
    fun _ hreads => hreads.isEntry

theorem lines_read (hparts : ∀ part ∈ parts, part.value.Legible (.one statements) false) :
    Yields IsCode (printer.lines parts level) := by
  have hline : ∀ part ∈ parts, Yields IsCode (do
      return printer.pad level ++
        (← printer.statement part level)) := by
    intro part hpart
    refine (hreading.statement_reads (hparts part hpart)).bind fun text htext => .pure ?_
    obtain ⟨signs, hpiece⟩ := htext
    exact ⟨_, (Piece.blank .operand (hreading.pad_blank level)).append_any hpiece⟩
  exact (Yields.mapM hline).bind fun texts htexts => .pure (Piece.isCode_lines htexts)

theorem braced_reads (hparts : ∀ part ∈ parts, part.value.Legible (.one statements) false) :
    Yields (IsGroup '\x7b') (printer.braced parts level) := by
  refine .ite (fun _ => .pure ⟨rfl, fun goal later hlater => ?_⟩) fun _ => ?_
  · exact (Piece.blank .operand (show "".toList.all isBlank = true from rfl)).braced goal rfl hlater
  · refine (hreading.lines_read hparts).bind fun text htext => ?_
    obtain ⟨signs, hpiece⟩ := htext
    refine .pure ⟨?_, fun goal later hlater => ?_⟩
    · simp only [String.toList_append]
      rfl
    · exact hpiece.bracedLines goal rfl (hreading.pad_blank level) hlater

theorem block_reads (hpart : part.value.Legible (.one kinds) false)
    (hblock : part.value.kind = .blockStatement) :
    Yields (IsGroup '\x7b') (printer.block part level) :=
  (Part.listAt_legible hpart hblock rfl).bind fun _ hparts =>
    hreading.braced_reads hparts

/-- The parameters of a function in parentheses, and its body. -/
theorem functionTail_reads {params : Except Fault (List (Part node))}
    {body : Except Fault (Part node)}
    (hparams : Yields (fun parts => ∀ part ∈ parts, part.value.Legible (.one targets) false)
      params)
    (hbody : Yields (fun part => part.value.Legible (.one kinds) false ∧
      part.value.kind = .blockStatement) body) :
    Yields (IsGroup '(') (printer.functionTail params body level) := by
  refine hparams.bind fun parts hparts => ?_
  refine (hreading.list_reads hparts rfl).bind fun pieces hpieces => ?_
  refine (commaSeparated_reads hpieces).bind fun names hnames => ?_
  refine hbody.bind fun found hfound => ?_
  refine (hreading.block_reads hfound.1 hfound.2).bind fun block hblock => ?_
  obtain ⟨signs, after, -, hlist⟩ := hnames
  refine .pure ⟨?_, fun goal later hlater => ?_⟩
  · simp only [String.toList_append, toList_parenthesized]
    rfl
  · exact ((hlist.parenthesized goal rfl (by decide)).append_any
      (Piece.space .operand)).append_any (hblock.piece .operand later hlater)

theorem functionTailOf_reads (hpart : part.value.Legible (.one kinds) false)
    (hfunction : part.value.kind = .functionExpression) :
    Yields (IsGroup '(') (printer.functionTailOf (some part) level) := by
  have hbody : Yields (fun body =>
      body.value.Legible (.one (.blockStatement :: expressions)) false ∧
        body.value.kind = .blockStatement) (part.require "body") := by
    obtain ⟨body, hbody, -, hblock⟩ := Part.body_yields hpart.printable hfunction
    obtain ⟨found, hfound, hlegible⟩ := Part.require_legible hpart hfunction
      (show Kind.slot .functionExpression "body" = .one (.blockStatement :: expressions) from rfl)
      rfl
    cases hbody.symm.trans hfound
    exact ⟨body, hbody, hlegible, hblock⟩
  exact hreading.functionTail_reads (Part.listAt_legible hpart hfunction rfl) hbody

/-- A key that is no name is printed as an expression. -/
theorem key_reads {isKey : Bool} (hpart : part.value.Legible (.one expressions) isKey) :
    Yields IsKey (printer.expression part Precedence.primary level) := by
  by_cases hname : part.value.kind = .identifier
  · obtain rfl := hreading.printer_eq
    obtain ⟨_, hfound, word, rfl, hword, -⟩ := hpart.name_yields hname
    have hphrase := @Printer.phrase?_name _ (part.value.printerIn style noIn) level _ hname
      (lookup_of_name hfound)
    have hprint := print_of_phrase hphrase Precedence.primary
    rw [if_neg (Nat.lt_irrefl _)] at hprint
    have hpiece := Piece.word hword (@Goal.permits_after .operand (.word word) rfl)
    exact ⟨_, hprint, word, _, rfl, startsTerm_of_word hword, _, trivial,
      hpiece.mono fun char hends =>
        isWordEnd_of_endsBefore (endsBefore_of_ends hends : endsBefore word char = true)⟩
  · refine (hreading.expression_reads (hpart.unkeyed hname) rfl).mono ?_
    rintro content ⟨text, htext, hworded⟩
    exact ⟨text, _, htext, hworded.starts, hworded.item.anywhere⟩

theorem propertyKey_reads {isKey : Bool} (hpart : part.value.Legible (.one inside) isKey)
    (hkind : part.value.kind = kind) (hslot : kind.slot "key" = .one expressions)
    (hkey : part.value.flag "computed" = true →
      kind.holdsKey (part.value.flag "computed") "key" = false) :
    Yields IsKey (printer.propertyKey part level) := by
  obtain ⟨held, hheld, hlegible⟩ := hpart.require_yields_keyed hkind hslot
  rw [Printer.propertyKey, require_eq_ok_iff.1 hheld, Option.map_some]
  refine .ite (fun hcomputed => ?_) fun _ => ?_
  · rw [hkey hcomputed] at hlegible
    have hinner : (part.within held).value.Legible (.one expressions) false := hlegible
    refine (hreading.expression_reads hinner rfl).bind fun content hreads => ?_
    obtain ⟨text, rfl, hworded⟩ := hreads
    refine .pure ⟨"[" ++ text ++ "]", [], rfl, ?_, .operator, trivial, ?_⟩
    · rw [startsTerm]
      simp only [String.toList_append]
      rfl
    · exact (hworded.loose.squared .operand rfl).narrow
  · have hinner : (part.within held).value.Legible (.one expressions) _ := hlegible
    exact hreading.key_reads hinner

/-- The declarations of a variable declaration, of which the first clause of a loop may
consist. -/
theorem declaration_reads {declarations : Except Fault (List (Part node))}
    (hdeclarations : declarations = .ok parts)
    (hparts : ∀ part ∈ parts, part.value.Legible (.one [.variableDeclarator]) false)
    {keyword : String} (hkeyword : keyword ∈ declarationWords) :
    Yields (fun text => ∃ after, after ≠ .property ∧ Piece .operand text
        (parts.map fun part => part.value.declaratorSigns style noIn level).flatten after ends)
      (printer.declaration declarations keyword level) := by
  have hwords : ∀ word ∈ declarationWords, isWord word = true ∧
      Goal.permits .operand (.word word) .operand = true ∧
        ScriptToken.sign? ⟨.operand, .word word⟩ = none := by decide
  obtain ⟨hword, hpermits, hsign⟩ := hwords keyword hkeyword
  have hfront := Piece.keyword keyword hword hpermits hsign
  rw [Printer.declaration, hdeclarations, ok_bind]
  refine Yields.bind (@Yields.mapM_forall₂ _ _ _ _ parts (fun part content =>
    ∃ text, content = Value.text text ∧ IsTerm
      (part.value.declaratorSigns style noIn level) text) fun part hmem => ?_)
    fun contents hcontents => ?_
  · have hpart := hparts part hmem
    have hkind := List.mem_singleton.1 hpart.kind_mem
    refine (Part.require_shows hpart hkind rfl style noIn level rfl).bind fun id hid => ?_
    refine (hreading.expression_reads hid.1 rfl).bind fun _ htarget => ?_
    refine (Part.given?_shows hpart hkind rfl style noIn level rfl).bind fun init? hinit => ?_
    obtain ⟨target, rfl, htext⟩ := htarget
    rw [← hid.2] at htext
    rcases hinit with ⟨rfl, hsigns⟩ | ⟨init, rfl, hlegible, hsigns⟩
    · refine .pure ⟨target, rfl, ?_⟩
      rw [declaratorSigns, hsigns, List.append_nil]
      exact htext.isTerm
    · refine (hreading.expression_reads hlegible rfl).bind fun _ hvalue => ?_
      obtain ⟨behind, rfl, hbehind⟩ := hvalue
      rw [← hsigns] at hbehind
      have hequals : Piece .operator " = " [] .operand anyChar := @Piece.spaced (.mark "=") rfl
      refine .pure ⟨target ++ (" = " ++ behind), rfl, startsTerm_append htext.starts _, ?_⟩
      refine htext.loose.append (hequals.append_any hbehind.loose) ?_
      rw [String.toList_append]
      rfl
  by_cases hne : parts = []
  · subst hne
    cases hcontents
    exact .pure ⟨.operand, by decide, hfront.append_any (Piece.blank .operand rfl).narrow⟩
  · refine (separated_reads hne hcontents).bind fun text htext => ?_
    exact .pure ⟨.operator, by decide, hfront.append_any htext.piece⟩

end PartsRead

namespace Reading

open Value Kind

variable {style : Style} {noIn : Bool} {slot : Slot} {isKey : Bool} {node : Value}
  {printer : Printer node} {kind : Kind} {kinds : List Kind} {key : String} {strength : Nat}
  {level : Int} (hreading : Reading style noIn slot isKey printer)

include hreading

theorem expressionAt_reads (hkind : node.kind = kind) (hslot : kind.slot key = .one kinds)
    (hkey : kind.holdsKey (node.flag "computed") key = false)
    (hkinds : kinds.all phrases.contains = true) :
    Yields (IsWorded strength (node.signsAt style noIn level key strength))
      (printer.expressionAt key strength level) := by
  obtain ⟨part, hpart, hlegible⟩ := hreading.legible.require_yields hkind hkey hslot
  rw [Printer.expressionAt, hpart, signsAt_of_part (require_eq_ok_iff.1 hpart)]
  exact hreading.expression_reads hlegible hkinds

/-- What is printed for a part that may be missing. -/
theorem given_reads {α : Type} {fits : α → Prop} {missing : Except Fault α}
    {given : Part node → Except Fault α} (hkind : node.kind = kind)
    (hslot : kind.slot key = .optional kinds)
    (hkey : kind.holdsKey (node.flag "computed") key = false)
    (hmissing : node.given? key = none → Yields fits missing)
    (hgiven : ∀ part, node.given? key = some part → part.value.Legible (.one kinds) false →
      Yields fits (given part)) :
    Yields fits ((node.given? key).elim missing given) := by
  rcases hreading.legible.given?_cases hkind hkey hslot with hnone | ⟨part, hpart, hlegible⟩
  · rw [hnone]
    exact hmissing hnone
  · rw [hpart]
    exact hgiven part hpart hlegible

theorem operandAt_reads (hkind : node.kind = kind) (hslot : kind.slot key = .one kinds)
    (hkey : kind.holdsKey (node.flag "computed") key = false)
    (hkinds : kinds.all phrases.contains = true) (hstrength : Precedence.unary ≤ strength) :
    Yields (IsWorded strength []) (printer.expressionAt key strength level) := by
  have hreads : Yields _ (printer.expressionAt key strength level) :=
    hreading.expressionAt_reads hkind hslot hkey hkinds
  rwa [signsAt_eq_nil hstrength] at hreads

end Reading

end Debundle
