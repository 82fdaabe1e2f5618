import Debundle.Proofs.Script.Reading
import Debundle.Proofs.Script.RoundTrip

/-!
# Expressions and their surfaces

Every rule for an expression gives a text with matching brackets, on whose surface are the signs
that the tree tells.
-/

namespace Debundle

open Attempt Lexer Operator

/-- A function or a class, which is a statement or an expression by itself. -/
structure IsDefinition (text : String) : Prop where
  starts : startsTerm text = true
  solid : text.toList.all Char.isDigit = false
  piece : ∀ later, later ≠ .property → Piece .operand text [] later anyChar

theorem IsDefinition.shows {text : String} (hdefinition : IsDefinition text) (isNumeral : Bool)
    (strength : Nat) : (Phrase.ofText text strength).Shows .bare isNumeral :=
  Phrase.shows_bare (.of_any hdefinition.starts (hdefinition.piece .operator (by decide)))
    hdefinition.solid

/-- One character that is no digit is enough. -/
theorem not_digits {text : String} (char : Char) (hchar : char.isDigit = false)
    (hmem : char ∈ text.toList) : text.toList.all Char.isDigit = false :=
  Bool.eq_false_iff.2 (not_all_digits char hmem hchar)

theorem not_digits_of_word {text : String} (hword : isWord text = true) :
    text.toList.all Char.isDigit = false := by
  obtain ⟨char, rest, htext, -, hdigit, -⟩ := isWord_iff.1 hword
  exact not_digits char hdigit (htext ▸ List.mem_cons_self)

namespace Lexer.Piece

/-- A member behind its owner. -/
theorem point {name : String} (hname : isWord name = true) (goal : Goal) :
    Piece goal ("." ++ name) [] .operator isWordEnd := by
  have hmark : Piece goal "." [] .property (markStops ".") :=
    mark (by decide) (by decide) (.inr (by decide)) rfl rfl
  have hpermits : Goal.permits .property (.word name) .operator = true :=
    @Goal.permits_after .property (.word name) rfl
  have hsign : ScriptToken.sign? ⟨.property, .word name⟩ = none := by
    simp [ScriptToken.sign?]
  have hword := word hname hpermits
  rw [hsign] at hword
  obtain ⟨char, rest, htext, hstops⟩ := exists_markStops_of_isWord hname
  refine hmark.append hword ?_
  rw [htext]
  exact hstops

/-- A mark that is no part of a longer one. -/
theorem freeMark {text : String} {goal after : Goal} 
    (hmark : text ∈ marks ∧ text ∉ slashMarks ∧ text ∉ commentMarks ∧ text ≠ "." ∧
      continuations text = [])
    (hrole : (Lexeme.mark text).role = .plain) (hafter : goal.after (.mark text) = after) :
    Piece goal text (ScriptToken.sign? ⟨goal, .mark text⟩).toList after anyChar := by
  obtain ⟨hmark, hslash, hcomment, hpoint, hfree⟩ := hmark
  have hpiece := mark hmark hcomment (.inr hslash) hrole hafter
  exact hpiece.mono fun char _ => by simp [markStops, hfree, hpoint]

/-- The colon behind a key, a label or a case. -/
theorem colon (goal : Goal) : Piece goal ":" [.answers] .operand anyChar :=
  freeMark (by decide) rfl rfl

theorem colonSpace (goal : Goal) : Piece goal ": " [.answers] .operand anyChar :=
  show Piece goal (":" ++ " ") ([.answers] ++ []) .operand anyChar from
    (colon goal).append_any (space .operand)

/-- A keyword that may be missing. -/
theorem optional {word : String} (isGiven : Bool)
    (hword : Piece .operand word [] .operand anyChar) :
    Piece .operand (if isGiven then word else "") [] .operand anyChar := by
  cases isGiven with
  | true => exact hword
  | false => exact blank .operand rfl

theorem async : Piece .operand "async " [] .operand anyChar :=
  keyword "async" rfl rfl rfl

/-- The star of a generator, in front of a name or a parenthesis. -/
theorem star : Piece .operand "*" [] .operand isTermStart := by
  have hmark : Piece .operand "*" [] .operand (markStops "*") :=
    mark (by decide) (by decide) (.inr (by decide)) rfl rfl
  have hcontinued : (continuations "*").all (fun next => !isTermStart next) = true := by decide
  refine hmark.mono fun char hchar => ?_
  have hfree : char ∉ continuations "*" := by
    intro hmem
    have hstart := List.all_eq_true.1 hcontinued char hmem
    rw [hchar] at hstart
    cases hstart
  simp [markStops, hfree]

theorem optionalStar (isGiven : Bool) :
    Piece .operand (if isGiven then "*" else "") [] .operand isTermStart := by
  cases isGiven with
  | true => exact star
  | false => exact (blank .operand rfl).narrow

/-- What follows the keyword of a function: its parameters or its name. -/
def startsTail (char : Char) : Bool :=
  char == '(' || char == ' '

theorem functionWord (isAsync : Bool) :
    Piece .operand (if isAsync then "async function" else "function") [] .operand isWordEnd := by
  have hfunction : Piece .operand "function" [] .operand isWordEnd := @word _ _ "function" rfl rfl
  cases isAsync with
  | true => exact async.append_any hfunction
  | false => exact hfunction

theorem functionKeyword {word : String} (isGenerator : Bool)
    (hword : Piece .operand word [] .operand isWordEnd) :
    Piece .operand (if isGenerator then word ++ "*" else word) [] .operand startsTail := by
  have htails : ∀ char, startsTail char = true →
      isTermStart char = true ∧ isWordEnd char = true := by
    intro char hchar
    rw [startsTail, Bool.or_eq_true, beq_iff_eq, beq_iff_eq] at hchar
    rcases hchar with rfl | rfl <;> decide
  cases isGenerator with
  | true => exact (hword.append star rfl).mono fun char hchar => (htails char hchar).1
  | false => exact hword.mono fun char hchar => (htails char hchar).2

end Lexer.Piece

theorem piece_of_accessor? {property : Value} {keyword : String}
    (haccessor : property.accessor? = some keyword) :
    Piece .operand keyword [] .operand anyChar := by
  rw [Value.accessor?] at haccessor
  split at haccessor <;> cases haccessor
  · exact .keyword "get" rfl rfl rfl
  · exact .keyword "set" rfl rfl rfl

namespace Reading

open Value Kind

variable {style : Style} {noIn : Bool} {slot : Slot} {node : Value} {printer : Printer node}
  {kind : Kind} {kinds inside : List Kind} {key : String} {part : Part node}
  {parts : List (Part node)} {isNumeral : Bool} {strength : Nat} {level : Int}
  (hreading : Reading style noIn slot false printer)

include hreading

theorem identifier_shows (hkind : node.kind = .identifier) :
    Yields (Phrase.Shows .bare isNumeral) printer.identifier := by
  refine (hreading.legible.name_yields hkind).bind fun name hname => ?_
  obtain ⟨word, rfl, hword, hreserved⟩ := hname
  exact .pure (Phrase.shows_bare (.of_wordEnd (startsTerm_of_word hword)
    (Piece.name hword (hreserved rfl))) (not_digits_of_word hword))

omit hreading in
/-- A word that is an expression by itself. -/
theorem word_shows {word : String} (hword : isWord word = true)
    (hpermits : Goal.permits .operand (.word word) .operator = true)
    (hsign : ScriptToken.sign? ⟨.operand, .word word⟩ = none) (strength : Nat) :
    (Phrase.ofText word strength).Shows .bare isNumeral := by
  have hpiece := Piece.word hword hpermits
  rw [hsign] at hpiece
  exact Phrase.shows_bare (.of_wordEnd (startsTerm_of_word hword) hpiece) (not_digits_of_word hword)

theorem literal_shows (hkind : node.kind = .literal) :
    Yields (Phrase.Shows .bare node.isNumeric) printer.literal := by
  have hspelling := hreading.legible.hasSpelling (by simp [hkind])
  simp only [Value.hasSpelling, hkind] at hspelling
  obtain ⟨text, hsource, hspelled⟩ := (Option.any_eq_true _ _).1 hspelling
  have hrule : printer.literal =
      node.literalSource.map (Phrase.ofText · Precedence.primary) := by
    rw [Printer.literal, literalSource]
    cases node.lookup "raw" with
    | none => rfl
    | some raw => cases raw <;> rfl
  have hok : node.literalSource = .ok text := by
    cases hliteral : node.literalSource with
    | error fault =>
      rw [hliteral] at hsource
      cases hsource
    | ok found =>
      rw [hliteral] at hsource
      exact congrArg Except.ok (Option.some.inj hsource)
  rw [Bool.and_eq_true, Bool.or_eq_true, Bool.not_eq_true'] at hspelled
  obtain ⟨hliteral, hnumber⟩ := hspelled
  rw [hrule, hok]
  refine ⟨_, rfl, ⟨text, rfl, .of_endsBefore (startsTerm_of_literal hliteral)
    (Piece.literal hliteral)⟩, .inl rfl, fun hnumeral _ => ?_⟩
  -- Nothing but digits would be a number.
  cases hdigits : text.toList.all Char.isDigit with
  | false => exact hdigits
  | true =>
    rw [hnumeral, isNumber_of_digits hliteral hdigits] at hnumber
    simp at hnumber

/-- A gap has nothing in it, and takes a comma of its own at the end. -/
theorem array_shows (hkind : node.kind = kind) (hslot : kind.slot "elements" = .holey kinds)
    (hkinds : kinds.all phrases.contains = true) :
    Yields (Phrase.Shows .bare isNumeral) (printer.array level) := by
  refine (hreading.legible.listAt_yields hkind hslot rfl rfl).bind fun elements helements => ?_
  refine (Yields.mapM fun element hmem => ?_).bind fun pieces hpieces =>
    (commaSeparated_reads hpieces).bind fun list hlist => .pure ?_
  · refine .ite (fun _ => .pure ⟨"", [], rfl, .operand, trivial, (Piece.blank .operand rfl).narrow⟩)
      fun hnull => ?_
    have helement := (helements element hmem).given (Bool.eq_false_iff.2 hnull)
    exact (hreading.expression_reads helement hkinds).mono fun _ hreads => hreads.isEntry
  · obtain ⟨signs, after, -, hpiece⟩ := hlist
    have hinner : ∃ signs after, Piece .operand
        (list ++ if elements.getLast?.any (·.value.isNull) then "," else "") signs after ends := by
      split
      · exact ⟨_, _, hpiece.append (Piece.divider (by decide) after).narrow rfl⟩
      · rw [String.append_empty]
        exact ⟨_, _, hpiece⟩
    obtain ⟨_, _, hinner⟩ := hinner
    have hsquared := hinner.squared .operand rfl
    rw [← String.append_assoc] at hsquared
    refine Phrase.shows_bare (.of_any ?_ hsquared) (not_digits '[' rfl (by simp))
    rw [startsTerm]
    simp only [String.toList_append]
    rfl

/-- A function behind its key, with keywords in front. -/
theorem keyedFunction_reads {keyword : String} {name : Value}
    (hpart : part.value.Legible (.one kinds) false)
    (hfunction : part.value.kind = .functionExpression)
    (hkeyword : Piece .operand keyword [] .operand isTermStart) (hname : IsKey name) :
    Yields IsEntry (printer.keyedFunction keyword name (some part) level) := by
  refine (hreading.functionTailOf_reads hpart hfunction).bind fun tail htail => ?_
  obtain ⟨text, signs, rfl, hstarts, after, -, hpiece⟩ := hname
  have hfront := (hkeyword.append hpiece hstarts).append
    (htail.piece after .operator (by decide)) (htail.joins rfl)
  exact .pure ⟨_, _, rfl, .operator, trivial, hfront.narrow⟩

theorem keyedValue_reads {name : Value} (hpart : part.value.Legible (.one kinds) false)
    (hname : IsKey name) (hkinds : kinds.all phrases.contains = true) :
    Yields IsEntry (printer.keyedValue name (some part) level) := by
  refine (hreading.expression_reads hpart hkinds).bind fun content hcontent => ?_
  obtain ⟨text, signs, rfl, -, after, -, hpiece⟩ := hname
  obtain ⟨behind, rfl, hbehind⟩ := hcontent
  exact .pure ⟨_, _, rfl, .operator, trivial,
    (hpiece.append (Piece.colonSpace after) rfl).append_any hbehind.loose⟩

theorem shorthand_reads {name : Value} (hname : IsKey name) {value : Part node}
    (hvalue : value.value.Legible (.one (expressions ++ targets)) false) :
    Yields IsEntry (printer.shorthand part name (some value) level) := by
  have hkeyed : Yields IsEntry (printer.keyedValue name (some value) level) :=
    hreading.keyedValue_reads hvalue hname rfl
  refine .ite (fun _ => .ite (fun _ => .pure hname.isEntry) fun _ => hkeyed) fun _ =>
    .ite (fun hkind => ?_) fun _ => hkeyed
  refine (Part.require_legible hvalue hkind rfl rfl).bind fun _ htarget => ?_
  rw [htarget.printable.asRecord]
  exact .ite (fun _ => (hreading.expression_reads hvalue rfl).mono fun _ hreads => hreads.isEntry)
    fun _ => hkeyed

theorem propertyMethod_reads {name : Value} (hpart : part.value.Legible (.one kinds) false)
    (hfunction : part.value.kind = .functionExpression) (hname : IsKey name) :
    Yields IsEntry (printer.propertyMethod name (some part) level) := by
  refine (Part.flag_yields hpart.printable _).bind fun isAsync _ => ?_
  refine (Part.flag_yields hpart.printable _).bind fun isGenerator _ => ?_
  exact hreading.keyedFunction_reads hpart hfunction
    ((Piece.optional isAsync .async).append_any (.optionalStar isGenerator)) hname

theorem property_reads (hpart : part.value.Legible (.one kinds) false)
    (hkind : part.value.kind = .property) : Yields IsEntry (printer.property part level) := by
  obtain ⟨held, hfound, hheld⟩ := hpart.require_yields hkind
    (show Kind.holdsKey .property (part.value.flag "computed") "value" = false from rfl) rfl
  have hvalue : (part.within held).value.Legible (.one (expressions ++ targets)) false := hheld
  have hlookup := lookup_of_part? (require_eq_ok_iff.1 hfound)
  have hfunction := hpart.printable.function_of_isKeyed hkind rfl hlookup
  rw [isKeyedFunction] at hfunction
  refine (hreading.propertyKey_reads hpart hkind rfl (fun hcomputed => ?_)).bind
    fun name hname => ?_
  · rw [hcomputed]
    rfl
  rw [require_eq_ok_iff.1 hfound, Option.map_some]
  cases haccessor : part.value.accessor? with
  | some keyword =>
    exact hreading.keyedFunction_reads hvalue (hfunction (by rw [haccessor]; rfl))
      (piece_of_accessor? haccessor).narrow hname
  | none =>
    refine .ite (fun hmethod => ?_) fun _ => .ite (fun _ => ?_) fun _ => ?_
    · exact hreading.propertyMethod_reads hvalue (hfunction (by rw [hmethod, Bool.or_true])) hname
    · exact hreading.shorthand_reads hname hvalue
    · exact hreading.keyedValue_reads hvalue hname rfl

theorem objectItem_reads (hpart : part.value.Legible (.one kinds) false)
    (hkinds : kinds.all (.property :: phrases).contains = true) :
    Yields IsEntry (printer.objectItem part level) := by
  refine .ite (fun hproperty => hreading.property_reads hpart hproperty) fun hproperty => ?_
  have hphrase := List.mem_of_ne_of_mem hproperty (mem_of_all hkinds hpart.kind_mem)
  exact (hreading.expression_reads (hpart.refit hphrase) rfl).mono fun _ hreads => hreads.isEntry

omit hreading in
/-- A text in braces is an expression. -/
theorem group_shows {text : String} (hgroup : IsGroup '\x7b' text) (strength : Nat) :
    (Phrase.ofText text strength).Shows .bare isNumeral := by
  refine Phrase.shows_bare (.of_any ?_ (hgroup.piece .operand .operator (by decide))) ?_
  · rw [startsTerm, hgroup.starts]
    rfl
  · exact not_digits '\x7b' rfl (List.mem_of_mem_head? hgroup.starts)

theorem object_shows (hkind : node.kind = .objectExpression) :
    Yields (Phrase.Shows .bare isNumeral) (printer.object level) := by
  refine (hreading.legible.listAt_yields hkind rfl rfl rfl).bind fun items hitems => ?_
  refine .ite (fun _ => .pure (group_shows ⟨rfl, fun goal later hlater => ?_⟩ _)) fun _ => ?_
  · exact (Piece.blank .operand (show "".toList.all isBlank = true from rfl)).braced goal rfl hlater
  · have hline : ∀ item ∈ items, Yields (fun text => ∃ signs, IsItem Anywhere text signs) (do
        return printer.pad (level + 1) ++
          (← (← printer.objectItem item (level + 1)).asAppended)) := by
      intro item hmem
      refine (hreading.objectItem_reads (hitems item hmem) rfl).bind fun content hcontent => ?_
      obtain ⟨text, signs, rfl, after, -, hpiece⟩ := hcontent
      exact .pure ⟨_, after, trivial,
        (Piece.blank .operand (hreading.pad_blank (level + 1))).append_any hpiece⟩
    refine (Yields.mapM hline).bind fun texts htexts => .pure (group_shows ⟨?_, ?_⟩ _)
    · simp only [String.toList_append]
      rfl
    · intro goal later hlater
      obtain ⟨signs, after, -, hlist⟩ := Piece.exists_separated isComma_lineBreak htexts
      exact hlist.bracedLines goal rfl (hreading.pad_blank level) hlater

theorem objectPattern_shows (hkind : node.kind = .objectPattern) :
    Yields (Phrase.Shows .bare isNumeral) (printer.objectPattern level) := by
  refine (hreading.legible.listAt_yields hkind rfl rfl rfl).bind fun items hitems => ?_
  refine (Yields.mapM fun item hmem => hreading.objectItem_reads (hitems item hmem) rfl).bind
    fun pieces hpieces => ?_
  refine (commaSeparated_reads hpieces).bind fun list hlist => .pure (group_shows ⟨?_, ?_⟩ _)
  · simp only [String.toList_append]
    rfl
  · intro goal later hlater
    obtain ⟨signs, after, -, hpiece⟩ := hlist
    exact hpiece.braced goal rfl hlater

/-- The name of a function or a class, if it has one, behind the keyword. -/
theorem ownName_reads (hkind : node.kind = kind)
    (hkey : kind.holdsKey (node.flag "computed") "id" = false)
    (hslot : kind.slot "id" = .optional [.identifier] ∨ kind.slot "id" = .one [.identifier]) :
    Yields (fun name => ∀ keyword, Piece .operand keyword [] .operand Piece.startsTail →
        ∃ after, after ≠ .property ∧ Piece .operand (keyword ++ name) [] after Piece.startsTail)
      printer.ownName := by
  have hcases : node.given? "id" = none ∨ ∃ part, node.given? "id" = some part ∧
      part.value.Legible (.one [.identifier]) false := by
    rcases hslot with hslot | hslot
    · exact hreading.legible.given?_cases hkind hkey hslot
    · obtain ⟨part, hpart, hlegible⟩ := hreading.legible.require_yields hkind hkey hslot
      obtain ⟨tag, fields, hnode, -⟩ := hlegible.printable.exists_node
      refine .inr ⟨part, ?_, hlegible⟩
      rw [given?, require_eq_ok_iff.1 hpart, Option.filter_some, hnode]
      rfl
  rw [Printer.ownName]
  rcases hcases with hnone | ⟨part, hpart, hlegible⟩
  · rw [hnone]
    refine ⟨"", rfl, fun keyword hkeyword => ⟨.operand, by decide, ?_⟩⟩
    rw [String.append_empty]
    exact hkeyword
  · rw [hpart]
    refine (hlegible.name_yields (List.mem_singleton.1 hlegible.kind_mem)).bind fun name hname => ?_
    obtain ⟨word, rfl, hword, hreserved⟩ := hname
    refine .pure fun keyword hkeyword => ⟨.operator, by decide, ?_⟩
    have hname := (Piece.space .operand).append_any (Piece.name hword (hreserved rfl))
    have hpiece := hkeyword.append hname (by rw [String.toList_append]; rfl)
    refine hpiece.mono fun char hchar => ?_
    rw [Piece.startsTail, Bool.or_eq_true, beq_iff_eq, beq_iff_eq] at hchar
    rcases hchar with rfl | rfl <;> decide

/-- The keywords of a function and its name. -/
theorem functionHead_reads (hkind : node.kind = kind)
    (hkey : kind.holdsKey (node.flag "computed") "id" = false)
    (hslot : kind.slot "id" = .optional [.identifier] ∨ kind.slot "id" = .one [.identifier]) :
    Yields (fun head => startsTerm head = true ∧ 'f' ∈ head.toList ∧
        ∃ after, Piece .operand head [] after Piece.startsTail) printer.functionHead := by
  refine (hreading.ownName_reads hkind hkey hslot).bind fun name hname => .pure ?_
  obtain ⟨after, -, hpiece⟩ := hname _ (Piece.functionKeyword (node.flag "generator")
    (Piece.functionWord (node.flag "async")))
  have hword : startsTerm (if node.flag "async" then "async function" else "function") = true ∧
      'f' ∈ (if node.flag "async" then "async function" else "function").toList := by
    cases node.flag "async" <;> decide
  have hkeyword : startsTerm (if node.flag "generator" then
        (if node.flag "async" then "async function" else "function") ++ "*"
      else if node.flag "async" then "async function" else "function") = true ∧
      'f' ∈ (if node.flag "generator" then
        (if node.flag "async" then "async function" else "function") ++ "*"
      else if node.flag "async" then "async function" else "function").toList := by
    cases node.flag "generator" with
    | true => exact ⟨startsTerm_append hword.1 _, by simp [hword.2]⟩
    | false => exact hword
  exact ⟨startsTerm_append hkeyword.1 _, by simp [hkeyword.2], after, hpiece⟩

/-- A function with its keyword. -/
theorem function_reads
    (hkind : node.kind = .functionExpression ∨ node.kind = .functionDeclaration) :
    Yields IsDefinition (printer.function level) := by
  have hid : node.kind.slot "id" = .optional [.identifier] ∨
      node.kind.slot "id" = .one [.identifier] := by
    rcases hkind with hkind | hkind
    · exact .inl (by rw [hkind]; rfl)
    · exact .inr (by rw [hkind]; rfl)
  have hplain : ∀ key, node.kind.holdsKey (node.flag "computed") key = false := by
    intro key
    rcases hkind with hkind | hkind <;> rw [hkind] <;> rfl
  have hisFunction : node.kind.isFunction = true := by
    rcases hkind with hkind | hkind <;> rw [hkind] <;> rfl
  have hbody : Yields (fun body =>
      body.value.Legible (.one (.blockStatement :: expressions)) false ∧
        body.value.kind = .blockStatement) (node.require "body") := by
    obtain ⟨body, hbody, -, hblock⟩ := hreading.legible.printable.body_yields rfl hkind
    obtain ⟨found, hfound, hlegible⟩ := hreading.legible.require_yields rfl (hplain "body")
      (Kind.slot_body hisFunction)
    cases hbody.symm.trans hfound
    exact ⟨body, hbody, hlegible, hblock⟩
  refine (hreading.functionHead_reads rfl (hplain "id") hid).bind fun head hhead => ?_
  refine (hreading.functionTail_reads
    (hreading.legible.listAt_yields rfl (Kind.slot_params hisFunction) rfl rfl) hbody).bind
      fun tail htail => .pure ?_
  obtain ⟨hstarts, hletter, after, hpiece⟩ := hhead
  refine ⟨startsTerm_append hstarts tail, not_digits 'f' rfl (by simp [hletter]),
    fun later hlater => ?_⟩
  exact hpiece.append (htail.piece after later hlater) (htail.joins rfl)

/-- What an arrow points to. -/
theorem arrowFunction_shows (hkind : node.kind = .arrowFunctionExpression) :
    Yields (Phrase.Shows ⟨node.arrowSigns style noIn level
        fun part => part.value.surface style noIn level, Precedence.arrowFunction⟩ isNumeral)
      (printer.arrowFunction level) := by
  refine (hreading.legible.listAt_yields hkind rfl rfl rfl).bind fun parts hparts => ?_
  refine (hreading.list_reads hparts rfl).bind fun pieces hpieces => ?_
  refine (commaSeparated_reads hpieces).bind fun params hparams => ?_
  obtain ⟨_, _, -, hlist⟩ := hparams
  have harrow : Piece .operator " => " [] .operand anyChar := @Piece.spaced (.mark "=>") rfl
  have hhead : Piece .operand ((if node.flag "async" then "async " else "") ++
      parenthesized params ++ " => ") [] .operand anyChar :=
    ((Piece.optional (node.flag "async") .async).append_any
      (hlist.parenthesized .operand rfl (by decide))).append_any harrow
  have hstarts : startsTerm ((if node.flag "async" then "async " else "") ++
      parenthesized params ++ " => ") = true := by
    cases node.flag "async" with
    | true =>
      rw [startsTerm, if_pos rfl]
      simp only [String.toList_append]
      rfl
    | false =>
      rw [startsTerm, if_neg Bool.false_ne_true]
      simp only [String.toList_append, toList_parenthesized]
      rfl
  obtain ⟨body, hbody, hlegible⟩ := hreading.legible.require_yields hkind
    (show Kind.holdsKey .arrowFunctionExpression (node.flag "computed") "body" = false from rfl) rfl
  rw [hbody, arrowSigns, require_eq_ok_iff.1 hbody, Option.map_some, Option.getD_some]
  refine .ite (fun hblock => ?_) fun hblock => ?_
  · rw [if_pos (.inl hblock)]
    refine (hreading.block_reads hlegible hblock).bind fun block hgroup => .pure ?_
    exact Phrase.shows_loose (.of_any (startsTerm_append hstarts block)
      (hhead.append_any (hgroup.piece .operand .operator (by decide)))) (.inr rfl) (by decide)
  · have hphrase := List.mem_of_ne_of_mem hblock hlegible.kind_mem
    obtain ⟨_, hprints, text, rfl, hworded⟩ :=
      hreading.expression_reads (hlegible.refit hphrase) rfl
    have hcontent : (body.value.print style noIn).expression Precedence.assignment level =
        .ok (.text text) := by
      rw [hreading.printer_eq] at hprints
      exact hprints
    rw [hprints, hcontent]
    refine .pure (Phrase.shows_loose ?_ (.inr rfl) (by decide))
    change Worded _ (if body.value.kind = .blockStatement ∨ startsWith text "\x7b" = true then []
      else (body.value.surface style noIn level).inPlace Precedence.assignment) _
    by_cases hbrace : startsWith text "\x7b" = true
    · rw [if_pos (.inr hbrace), if_pos hbrace]
      exact .of_any (startsTerm_append hstarts _)
        (hhead.append_any (hworded.loose.parenthesized .operand rfl (by decide)))
    · rw [if_neg (not_or.2 ⟨hblock, hbrace⟩), if_neg hbrace]
      exact .of_loose (startsTerm_append hstarts _) (by decide) (hhead.append_any hworded.loose)

theorem method_reads (hpart : part.value.Legible (.one [.methodDefinition]) false) :
    Yields IsCode (printer.method part level) := by
  have hkind := List.mem_singleton.1 hpart.kind_mem
  refine .ite (fun hother => absurd hkind hother) fun _ => ?_
  refine (Part.require_legible hpart hkind rfl rfl).bind fun function hfunction => ?_
  refine (Part.flag_yields hfunction.printable _).bind fun isAsync _ => ?_
  refine (Part.flag_yields hfunction.printable _).bind fun isGenerator _ => ?_
  refine (hreading.propertyKey_reads hpart hkind rfl (fun hcomputed => ?_)).bind
    fun name hname => ?_
  · rw [hcomputed]
    rfl
  obtain ⟨key, signs, rfl, hstarts, after, -, hkey⟩ := hname
  refine (hreading.functionTailOf_reads hfunction
    (List.mem_singleton.1 hfunction.kind_mem)).bind fun tail htail => .pure ?_
  have hstatic : Piece .operand "static " [] .operand anyChar := .keyword "static" rfl rfl rfl
  have haccessor : Piece .operand (part.value.accessor?.getD "") [] .operand anyChar := by
    cases hword : part.value.accessor? with
    | none => exact Piece.blank .operand rfl
    | some word => exact piece_of_accessor? hword
  have hwords := (((Piece.optional (part.value.flag "static") hstatic).append_any
    haccessor).append_any (Piece.optional isAsync .async)).append_any
      (Piece.optionalStar isGenerator)
  exact ⟨_, (hwords.append hkey hstarts).append (htail.piece after .operand (by decide))
    (htail.joins rfl)⟩

/-- What a class extends. -/
theorem classAncestor_reads (hkind : node.kind = kind)
    (hkey : kind.holdsKey (node.flag "computed") "superClass" = false)
    (hslot : kind.slot "superClass" = .optional expressions) :
    Yields (fun ancestor => ∀ head after, after ≠ .property →
        Piece .operand head [] after Piece.startsTail → ∃ later,
          Piece .operand (head ++ ancestor) [] later (· == ' ')) (printer.classAncestor level) := by
  have hspace : ∀ char, (char == ' ') = true → Piece.startsTail char = true := by
    intro char hchar
    rw [beq_iff_eq.1 hchar]
    rfl
  refine hreading.given_reads hkind hslot hkey
    (fun _ => .pure fun head after _ hhead => ⟨after, ?_⟩) fun _ _ hancestor => ?_
  · rw [String.append_empty]
    exact hhead.mono hspace
  · refine (hreading.operand_reads hancestor rfl (by decide)).bind fun content hcontent => ?_
    obtain ⟨text, rfl, hworded⟩ := hcontent
    refine .pure fun head after hafter hhead => ⟨.operator, ?_⟩
    have hextends : Piece after ("extends" ++ " ") [] .operand anyChar := by
      cases after with
      | property => exact absurd rfl hafter
      | _ => exact .keyword "extends" rfl rfl rfl
    have hword := ((Piece.space after).append_any hextends).append_any hworded.loose
    refine (hhead.append hword ?_).mono fun char hchar => ?_
    · simp only [String.toList_append]
      rfl
    · rw [beq_iff_eq.1 hchar]
      rfl

/-- A class with its keyword. -/
theorem classText_reads (hkind : node.kind = kind)
    (hplain : ∀ key, kind.holdsKey (node.flag "computed") key = false)
    (hid : kind.slot "id" = .optional [.identifier] ∨ kind.slot "id" = .one [.identifier])
    (hancestor : kind.slot "superClass" = .optional expressions)
    (hbody : kind.slot "body" = .one [.classBody]) :
    Yields IsDefinition (printer.classText level) := by
  have hclass : Piece .operand "class" [] .operand Piece.startsTail := by
    have hword : Piece .operand "class" [] .operand isWordEnd := @Piece.word _ _ "class" rfl rfl
    refine hword.mono fun char hchar => ?_
    rw [Piece.startsTail, Bool.or_eq_true, beq_iff_eq, beq_iff_eq] at hchar
    rcases hchar with rfl | rfl <;> decide
  refine (hreading.ownName_reads hkind (hplain _) hid).bind fun name hname => ?_
  refine (hreading.classAncestor_reads hkind (hplain _) hancestor).bind fun ancestor hextends => ?_
  refine (hreading.legible.require_yields hkind (hplain _) hbody).bind fun body hbody => ?_
  refine (Part.listAt_legible hbody (List.mem_singleton.1 hbody.kind_mem) rfl).bind
    fun members hmembers => ?_
  obtain ⟨after, hafter, hnamed⟩ := hname _ hclass
  obtain ⟨later, hhead⟩ := hextends _ after hafter hnamed
  have hdefinition : ∀ braced, (∀ goal final, final ≠ .property →
      Piece goal braced [] final anyChar) →
        IsDefinition ("class" ++ name ++ ancestor ++ (" " ++ braced)) := by
    intro braced hbraced
    refine ⟨?_, not_digits 'c' rfl (by simp), fun final hfinal => ?_⟩
    · rw [startsTerm]
      simp only [String.toList_append]
      rfl
    · refine hhead.append ((Piece.space later).append_any (hbraced later final hfinal)) ?_
      simp only [String.toList_append]
      rfl
  refine .ite (fun _ => .pure (hdefinition "\x7b\x7d" fun goal final hfinal => ?_)) fun _ => ?_
  · exact (Piece.blank .operand (show "".toList.all isBlank = true from rfl)).braced goal rfl hfinal
  · have hline : ∀ member ∈ members, Yields IsCode (do
        return printer.pad (level + 1) ++
          (← printer.method member (level + 1))) := by
      intro member hmem
      refine (hreading.method_reads (hmembers member hmem)).bind fun text htext => .pure ?_
      obtain ⟨signs, hpiece⟩ := htext
      exact ⟨_, (Piece.blank .operand (hreading.pad_blank (level + 1))).append_any hpiece⟩
    refine (Yields.mapM hline).bind fun texts htexts => .pure ?_
    obtain ⟨signs, hlines⟩ := Piece.isCode_lines htexts
    have htext := hdefinition _ fun goal final hfinal =>
      hlines.bracedLines goal rfl (hreading.pad_blank level) hfinal
    rw [show " \x7b\n" = " " ++ "\x7b\n" from rfl]
    simp only [String.append_assoc] at htext ⊢
    exact htext

end Reading

end Debundle
