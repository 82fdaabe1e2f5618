import Debundle.Proofs.Script.ReadingExpression

/-!
# Operations and their surfaces

Operators, calls, members and templates.  A mark between two operands has spaces around it, so it
is read as what it is; a mark in front of an operand does not run into it.

At the end all rules are put together: the text of every expression has the surface that the tree
tells.
-/

namespace Debundle

open Attempt Lexer Operator

namespace Lexer.Piece

variable {goal : Goal} {left right : String} {signs others : List Sign} {stops : Char → Bool}

/-- An operator with a space on each side between two operands. -/
theorem between {lexeme : Lexeme} (hspaced : isSpaced lexeme = true)
    (hleft : Piece goal left signs .operator ends)
    (hright : Piece .operand right others .operator stops) :
    Piece goal (left ++ " " ++ lexeme.text ++ " " ++ right)
      (signs ++ (ScriptToken.sign? ⟨.operator, lexeme⟩).toList ++ others) .operator stops := by
  have hpiece := (hleft.append (spaced hspaced) (by
    simp only [String.toList_append]
    rfl)).append_any hright
  simp only [← String.append_assoc] at hpiece
  exact hpiece

end Lexer.Piece

theorem startsTerm_between {text : String} (hstarts : startsTerm text = true)
    {one two three four : String} :
    startsTerm (text ++ one ++ two ++ three ++ four) = true := by
  iterate 4 apply startsTerm_append
  exact hstarts

/-- The operator of a node, spelled as one of the language. -/
theorem Value.operator_yields {Op : Type} [Operator Op] {node : Value}
    (hspelling : (node.textAt? "operator").any (isSpelling Op) = true) :
    ∃ op : Op, node.textAt? "operator" = some (spelling op) ∧
      Yields (fun part => part.value = .text (spelling op)) (node.require "operator") := by
  obtain ⟨word, hword, hspelled⟩ := (Option.any_eq_true _ _).1 hspelling
  obtain ⟨op, rfl⟩ := exists_of_isSpelling hspelled
  obtain ⟨part, hpart, hvalue⟩ := require_of_lookup (lookup_of_textAt? hword)
  exact ⟨op, hword, part, hpart, hvalue⟩

/-- An empty list of expressions counts as no list. -/
theorem filter_isTruthy {node : Value} {held : Part node} {items : List Value}
    (hheld : held.value = .array items) :
    (∀ part ∈ (some held).filter fun part => part.value.isTruthy, part.value = .array items) ∧
      (items ≠ [] → ((some held).filter fun part => part.value.isTruthy).isSome = true) := by
  constructor
  · intro part hpart
    cases (Option.filter_eq_some_iff.1 hpart).1
    exact hheld
  · intro hne
    have htruthy : held.value.isTruthy = true := by
      rw [hheld, Value.isTruthy, Bool.not_eq_true', List.isEmpty_eq_false_iff]
      exact hne
    rw [Option.filter_some, if_pos htruthy]
    rfl

namespace Reading

open Value Kind

variable {style : Style} {noIn : Bool} {slot : Slot} {node : Value} {printer : Printer node}
  {kind : Kind} {kinds inside : List Kind} {key : String} {part : Part node}
  {parts : List (Part node)} {isNumeral : Bool} {strength : Nat} {level : Int}
  (hreading : Reading style noIn slot false printer)

include hreading

theorem unary_shows (hkind : node.kind = .unaryExpression) :
    Yields (Phrase.Shows .bare isNumeral) (printer.unary level) := by
  have hspelling := hreading.legible.hasSpelling (by simp [hkind])
  simp only [Value.hasSpelling, hkind] at hspelling
  obtain ⟨op, -, hop⟩ := operator_yields hspelling
  have hstarts : startsTerm (spelling op) = true := by cases op <;> decide
  refine hop.bind fun operator hoperator => ?_
  refine (hreading.operandAt_reads hkind rfl rfl rfl (by decide)).bind fun _ hargument => ?_
  obtain ⟨text, rfl, hworded⟩ := hargument
  rw [hoperator]
  refine .ite (fun hletters => .pure ?_) fun hletters => ?_
  · -- A word is set off by a space.
    have hkeyword : Piece .operand (spelling op ++ " ") [] .operand anyChar := by
      rw [spells_letters] at hletters
      cases op <;> cases hletters <;> exact .keyword _ rfl rfl rfl
    exact Phrase.shows_loose (.of_loose (startsTerm_append (startsTerm_append hstarts _) _)
      (by decide) (hkeyword.append_any hworded.loose)) (.inl rfl) (by decide)
  · obtain ⟨sign, hsign⟩ : ∃ sign, op.sign? = some sign := by
      rw [spells_letters, Bool.not_eq_true, Option.isNone_eq_false_iff] at hletters
      exact Option.isSome_iff_exists.1 hletters
    have hlast : (spelling op).toList.getLast? = some sign := by
      cases op <;> cases hsign <;> rfl
    have hmark : Piece .operand (spelling op) [] .operand (markStops (spelling op)) := by
      cases op <;> cases hsign <;> exact .mark (by decide) (by decide) (.inr (by decide)) rfl rfl
    refine Yields.bind (⟨text, rfl, rfl⟩ : Yields (· = text) _) fun argument hargument => ?_
    rw [hargument, hlast]
    refine .pure (Phrase.shows_loose (.of_loose
      (startsTerm_append (startsTerm_append hstarts _) _) (by decide) ?_) (.inl rfl) (by decide))
    rw [String.append_assoc]
    split
    · refine hmark.append ((Piece.space .operand).append_any hworded.loose) ?_
      rw [String.toList_append]
      exact markStops_space _
    · rename_i hgap
      rw [String.empty_append]
      refine hmark.append hworded.loose ?_
      have hfirst := hworded.starts
      rw [startsTerm] at hfirst
      cases hchars : text.toList with
      | nil =>
        rw [hchars] at hfirst
        cases hfirst
      | cons char rest =>
        rw [hchars] at hfirst hgap
        rw [List.head?_cons, Option.any_some, isTermStart, Bool.and_eq_true, bne_iff_ne] at hfirst
        exact markStops_sign hsign hfirst.1 (by simpa using hgap)

theorem update_shows (hkind : node.kind = .updateExpression) :
    Yields (Phrase.Shows .bare isNumeral) (printer.update level) := by
  have hspelling := hreading.legible.hasSpelling (by simp [hkind])
  simp only [Value.hasSpelling, hkind] at hspelling
  obtain ⟨op, -, hop⟩ := operator_yields hspelling
  have hmark : ∀ goal, goal ≠ .property → Piece goal (spelling op) [] goal anyChar := by
    intro goal hgoal
    cases op <;> cases goal <;> first
      | exact absurd rfl hgoal
      | exact .freeMark (by decide) rfl rfl
  refine hop.bind fun operator hoperator => ?_
  refine (hreading.operandAt_reads hkind rfl rfl rfl (by decide)).bind fun _ hargument => ?_
  obtain ⟨text, rfl, hworded⟩ := hargument
  rw [hoperator]
  refine .ite (fun _ => ?_) fun _ => ?_
  · refine .pure (Phrase.shows_loose (.of_loose (startsTerm_append ?_ _) (by decide)
      ((hmark .operand (by decide)).append_any hworded.loose)) (.inl rfl) (by decide))
    cases op <;> decide
  · refine .pure (Phrase.shows_loose (.of_loose (startsTerm_append hworded.starts _) (by decide)
      (hworded.loose.append (hmark .operator (by decide)).narrow ?_)) (.inl rfl) (by decide))
    cases op <;> rfl

/-- An operation with `in` is put in parentheses where `in` may not stand. -/
theorem binary_shows (hkind : node.kind = .binaryExpression ∨ node.kind = .logicalExpression) :
    Yields (Phrase.Shows (((node.textAt? "operator").map (node.operationSurface noIn
        fun part => part.value.surface style noIn level)).getD .bare) isNumeral)
      (printer.binary level) := by
  have hslot : node.kind.slot "left" = .one expressions ∧
      node.kind.slot "right" = .one expressions := by
    rcases hkind with hkind | hkind <;> rw [hkind] <;> exact ⟨rfl, rfl⟩
  have hplain : ∀ key, node.kind.holdsKey (node.flag "computed") key = false := by
    intro key
    rcases hkind with hkind | hkind <;> rw [hkind] <;> rfl
  have hspelling : (node.textAt? "operator").any (isSpelling BinaryOp) = true := by
    have hspelling := hreading.legible.hasSpelling
      (by rcases hkind with hkind | hkind <;> simp [hkind])
    rcases hkind with hkind | hkind <;> simpa only [Value.hasSpelling, hkind] using hspelling
  obtain ⟨op, hword, hop⟩ := operator_yields hspelling
  have hsign : (ScriptToken.sign? ⟨.operator, lexeme op⟩).toList =
      if spelling op == "in" then [.within] else [] := by cases op <;> rfl
  have hloose : Precedence.ofOperator (spelling op) < Precedence.call :=
    Nat.lt_trans (ofOperator_lt_unary _) (by decide)
  obtain rfl := hreading.printer_eq
  rw [hword, Option.map_some, Option.getD_some, operationSurface]
  refine hop.bind fun operator hoperator => ?_
  rw [hoperator]
  rw [asKey_text, ok_bind]
  refine (hreading.expressionAt_reads rfl hslot.1 (hplain _) rfl).bind fun _ hleft => ?_
  refine (hreading.expressionAt_reads rfl hslot.2 (hplain _) rfl).bind fun _ hright => ?_
  obtain ⟨left, rfl, hleft⟩ := hleft
  obtain ⟨right, rfl, hright⟩ := hright
  have hpiece := hleft.loose.between (spaced_binary op).1 hright.loose
  rw [hsign] at hpiece
  have hworded := Worded.of_loose (startsTerm_between hleft.starts) hloose hpiece
  refine .ite (fun hin => .pure ?_) fun hin => .pure ?_
  · rw [if_pos (show (spelling op == "in" && noIn) = true from hin)]
    exact Phrase.shows_bare (hworded.parenthesized _) (not_digits '(' rfl (by simp [parenthesized]))
  · rw [if_neg (show ¬ (spelling op == "in" && noIn) = true from hin)]
    exact Phrase.shows_loose hworded (.inr rfl) hloose

theorem assignment_shows (hkind : node.kind = .assignmentExpression) :
    Yields (Phrase.Shows ⟨node.signsAt style noIn level "right" Precedence.assignment,
        Precedence.assignment⟩ isNumeral) (printer.assignment level) := by
  have hspelling := hreading.legible.hasSpelling (by simp [hkind])
  simp only [Value.hasSpelling, hkind] at hspelling
  obtain ⟨op, -, hop⟩ := operator_yields hspelling
  have hsign : (ScriptToken.sign? ⟨.operator, lexeme op⟩).toList = [] := by cases op <;> rfl
  refine (hreading.operandAt_reads hkind rfl rfl rfl (by decide)).bind fun _ hleft => ?_
  refine (hreading.expressionAt_reads hkind rfl rfl rfl).bind fun _ hright => ?_
  obtain ⟨left, rfl, hleft⟩ := hleft
  obtain ⟨right, rfl, hright⟩ := hright
  refine hop.bind fun operator hoperator => ?_
  rw [hoperator]
  have hpiece := hleft.loose.between (spaced_assign op).1 hright.loose
  rw [hsign] at hpiece
  exact .pure (Phrase.shows_loose (.of_loose (startsTerm_between hleft.starts) (by decide) hpiece)
    (.inr rfl) (by decide))

theorem assignmentPattern_shows (hkind : node.kind = .assignmentPattern) :
    Yields (Phrase.Shows ⟨node.signsAt style noIn level "right" Precedence.assignment,
        Precedence.assignment⟩ isNumeral) (printer.assignmentPattern level) := by
  have hequals : Piece .operator " = " [] .operand anyChar := @Piece.spaced (.mark "=") rfl
  refine (hreading.operandAt_reads hkind rfl rfl rfl (by decide)).bind fun _ hleft => ?_
  refine (hreading.expressionAt_reads hkind rfl rfl rfl).bind fun _ hright => ?_
  obtain ⟨left, rfl, hleft⟩ := hleft
  obtain ⟨right, rfl, hright⟩ := hright
  have hstarts := startsTerm_append (startsTerm_append hleft.starts " = ") right
  exact .pure (Phrase.shows_loose (.of_loose hstarts (by decide)
    ((hleft.loose.append hequals rfl).append_any hright.loose)) (.inr rfl) (by decide))

theorem conditional_shows (hkind : node.kind = .conditionalExpression) :
    Yields (Phrase.Shows ⟨node.signsAt style noIn level "test" Precedence.logicalOr ++ [.asks] ++
          node.signsAt style noIn level "consequent" Precedence.assignment ++ [.answers] ++
          node.signsAt style noIn level "alternate" Precedence.assignment,
        Precedence.conditional⟩ isNumeral) (printer.conditional level) := by
  have hasks : Piece .operator " ? " [.asks] .operand anyChar := @Piece.spaced (.mark "?") rfl
  have hanswers : Piece .operator " : " [.answers] .operand anyChar := @Piece.spaced (.mark ":") rfl
  refine (hreading.expressionAt_reads hkind rfl rfl rfl).bind fun _ htest => ?_
  refine (hreading.expressionAt_reads hkind rfl rfl rfl).bind fun _ hconsequent => ?_
  refine (hreading.expressionAt_reads hkind rfl rfl rfl).bind fun _ halternate => ?_
  obtain ⟨test, rfl, htest⟩ := htest
  obtain ⟨consequent, rfl, hconsequent⟩ := hconsequent
  obtain ⟨alternate, rfl, halternate⟩ := halternate
  have hchoice := (htest.loose.append hasks rfl).append_any hconsequent.loose
  exact .pure (Phrase.shows_loose (.of_loose (startsTerm_between htest.starts) (by decide)
    ((hchoice.append hanswers rfl).append_any halternate.loose)) (.inr rfl) (by decide))

theorem arguments_reads (hkind : node.kind = kind)
    (hslot : kind.slot "arguments" = .many (.spreadElement :: expressions)) :
    Yields (IsGroup '(') (printer.arguments level) := by
  refine (hreading.legible.listAt_yields hkind hslot rfl rfl).bind fun parts hparts => ?_
  refine (hreading.list_reads hparts rfl).bind fun pieces hpieces => ?_
  refine (commaSeparated_reads hpieces).bind fun list hlist =>
    .pure ⟨?_, fun goal later hlater => ?_⟩
  · rw [toList_parenthesized]
    rfl
  · obtain ⟨signs, after, -, hpiece⟩ := hlist
    exact hpiece.parenthesized goal rfl hlater

theorem call_shows (hkind : node.kind = .callExpression) :
    Yields (Phrase.Shows .bare isNumeral) (printer.call level) := by
  refine (hreading.operandAt_reads hkind rfl rfl rfl (by decide)).bind fun _ hcallee => ?_
  obtain ⟨callee, rfl, hworded⟩ := hcallee
  refine (hreading.arguments_reads hkind rfl).bind fun arguments hgroup => ?_
  have hpiece := hworded.loose.append (hgroup.piece .operator .operator (by decide))
    (hgroup.joins rfl)
  have hmem : '(' ∈ (callee ++ arguments).toList := by
    simp [List.mem_of_mem_head? hgroup.starts]
  exact .pure (Phrase.shows_bare (.of_any (startsTerm_append hworded.starts _) hpiece)
    (not_digits '(' rfl hmem))

/-- What is called with `new`, in parentheses if there is a call in it. -/
theorem newCallee_reads (hpart : part.value.Legible (.one expressions) false) :
    Yields (Worded Precedence.new []) (printer.newCallee part level) := by
  refine (hreading.operand_reads hpart rfl (by decide)).bind fun content hreads => ?_
  obtain ⟨text, rfl, hworded⟩ := hreads
  refine .ite (fun _ => .pure ?_) fun _ => .pure hworded
  split
  · exact hworded
  · exact hworded.parenthesized _

theorem newCall_shows (hkind : node.kind = .newExpression) :
    Yields (Phrase.Shows .bare isNumeral) (printer.newCall level) := by
  have hnew : Piece .operand ("new" ++ " ") [] .operand anyChar := .keyword "new" rfl rfl rfl
  refine (hreading.legible.require_yields hkind rfl rfl).bind fun part hpart => ?_
  refine (hreading.newCallee_reads hpart).bind fun callee hworded => ?_
  refine (hreading.arguments_reads hkind rfl).bind fun arguments hgroup => .pure ?_
  have hpiece := (hnew.append_any hworded.loose).append
    (hgroup.piece .operator .operator (by decide)) (hgroup.joins rfl)
  refine Phrase.shows_bare (.of_any ?_ hpiece) (not_digits 'n' rfl (by simp))
  rw [startsTerm]
  simp only [String.toList_append]
  rfl

/-- The owner of a member.  Parentheses keep a point apart from digits. -/
theorem memberOwner_reads (hkind : node.kind = .memberExpression) :
    Yields (fun owner => startsTerm owner = true ∧
        Piece .operand owner [] .operator fun char => char == '.' || char == '[')
      (printer.memberOwner level) := by
  obtain ⟨part, hpart, hlegible⟩ := hreading.legible.require_yields hkind
    (show Kind.holdsKey .memberExpression (node.flag "computed") "object" = false from rfl) rfl
  obtain rfl := hreading.printer_eq
  obtain ⟨_, hprints, ⟨text, rfl, hworded⟩, hsolid⟩ := hreading.expression part
    (hlegible.refit ((show expressions ⊆ phrases by decide) hlegible.kind_mem)) noIn
    Precedence.call level
  rw [inPlace_eq_nil (by decide)] at hworded
  refine ⟨_, Printer.memberOwner_eq_ok hpart hprints, ?_⟩
  split
  · exact ⟨(hworded.parenthesized 0).starts,
      (hworded.loose.parenthesized .operand rfl (by decide)).narrow⟩
  · rename_i hbare
    have hdigits : text.toList.all Char.isDigit = false := by
      cases hnumeral : part.value.isNumeric with
      | false => exact hsolid hnumeral (Nat.le_refl _)
      | true =>
        by_contra hall
        rw [Bool.not_eq_false] at hall
        rw [hnumeral, spells_digits hworded.startsOperand hall] at hbare
        exact hbare rfl
    refine ⟨hworded.starts, (hworded.linked (Nat.le_refl _)).mono fun char hchar => ?_⟩
    rw [Bool.or_eq_true, beq_iff_eq, beq_iff_eq] at hchar
    rcases hchar with rfl | rfl
    · simp [endsBefore, hdigits]
    · rfl

/-- A property that is not computed is a name. -/
theorem member_shows (hkind : node.kind = .memberExpression) :
    Yields (Phrase.Shows .bare isNumeral) (printer.member level) := by
  refine (hreading.memberOwner_reads hkind).bind fun owner howner => ?_
  obtain ⟨hstarts, howner⟩ := howner
  refine .ite (fun hcomputed => ?_) fun hcomputed => ?_
  · have hkey : Kind.holdsKey .memberExpression (node.flag "computed") "property" = false := by
      rw [hcomputed]
      rfl
    refine (hreading.expressionAt_reads hkind rfl hkey rfl).bind fun _ hindex => .pure ?_
    obtain ⟨index, rfl, hworded⟩ := hindex
    have hpiece := howner.append (hworded.loose.squared .operator rfl) (by
      simp only [String.toList_append]
      rfl)
    simp only [← String.append_assoc] at hpiece
    refine Phrase.shows_bare (.of_any ?_ hpiece) (not_digits '[' rfl (by simp))
    exact startsTerm_append (startsTerm_append (startsTerm_append hstarts _) _) _
  · obtain ⟨part, hpart, hproperty⟩ := hreading.legible.require_yields_keyed hkind
      (show Kind.slot .memberExpression "property" = .one expressions from rfl)
    have hlookup := lookup_of_part? (require_eq_ok_iff.1 hpart)
    have hdetail := hreading.legible.printable.hasDetail (by simp [hkind])
    simp only [Value.hasDetail, hkind, hcomputed, hlookup, Bool.false_or, Option.any_some,
      beq_iff_eq] at hdetail
    rw [hpart]
    refine (hproperty.name_yields hdetail).bind fun name hname => .pure ?_
    obtain ⟨word, rfl, hword, -⟩ := hname
    have hpiece := howner.append (Piece.point hword .operator) (by
      rw [String.toList_append]
      rfl)
    simp only [← String.append_assoc] at hpiece
    exact Phrase.shows_bare (.of_wordEnd (startsTerm_append (startsTerm_append hstarts _) _) hpiece)
      (not_digits '.' rfl (by simp))

theorem sequence_shows (hkind : node.kind = .sequenceExpression) :
    Yields (Phrase.Shows ⟨((((node.require "expressions").bind Part.elements).toOption.getD []).map
          fun part => (part.value.surface style noIn level).inPlace Precedence.assignment).flatten,
        Precedence.sequence⟩ isNumeral) (printer.sequence level) := by
  have hspelling := hreading.legible.hasSpelling (by simp [hkind])
  simp only [Value.hasSpelling, hkind, bne_iff_ne] at hspelling
  obtain ⟨items, hlookup, hitems⟩ := hreading.legible.exists_array hkind
    (show Kind.slot .sequenceExpression "expressions" = .many expressions from rfl)
  obtain ⟨held, hheld, hvalue⟩ := require_of_lookup hlookup
  have helements : held.elements.map (List.map Part.value) = .ok items := by
    rw [Part.elements_map_value, hvalue]
    rfl
  obtain ⟨parts, hparts, rfl⟩ := map_eq_ok_iff.1 helements
  have hne : parts ≠ [] := by
    rintro rfl
    rw [itemCount, hlookup] at hspelling
    exact hspelling rfl
  rw [Printer.sequence, hheld, ok_bind, hparts, ok_bind]
  refine Yields.bind (@Yields.mapM_forall₂ _ _ _ _ parts (fun part content =>
    ∃ text, content = Value.text text ∧ IsTerm
      ((part.value.surface style noIn level).inPlace Precedence.assignment) text)
        fun part hmem => ?_) fun contents hcontents => ?_
  · refine (hreading.expression_reads (hitems _ (List.mem_map_of_mem hmem)) rfl).mono ?_
    rintro content ⟨text, htext, hworded⟩
    exact ⟨text, htext, hworded.isTerm⟩
  · refine (separated_reads hne hcontents).bind fun text hterm => .pure ?_
    have hfound : ((Except.ok held).bind Part.elements).toOption.getD [] = parts := by
      rw [show (Except.ok held).bind Part.elements = held.elements from rfl, hparts]
      rfl
    rw [hfound]
    exact Phrase.shows_loose (.of_loose hterm.starts (by decide) hterm.piece) (.inr rfl) (by decide)

omit hreading in
theorem exists_piece {quasi : Value} (hquasi : quasi.Legible (.one [.templateElement]) false) :
    ∃ raw, quasi.HoldsPiece raw := by
  have hkind := List.mem_singleton.1 hquasi.kind_mem
  have hspelling := hquasi.hasSpelling (by simp [hkind])
  simp only [Value.hasSpelling, hkind] at hspelling
  obtain ⟨raw, hraw, hpiece⟩ := (Option.any_eq_true _ _).1 hspelling
  obtain ⟨held, hheld, htext⟩ := Option.bind_eq_some_iff.1 hraw
  exact ⟨raw, held, hheld, lookup_of_textAt? htext, hpiece⟩

/-- What an item of a list is printed as, in whichever way it is taken from the list. -/
theorem exists_item_text {held : Part node} {items : List Value} {item : Value}
    (hheld : held.value = .array items) (hitem : item ∈ items)
    (hlegible : item.Legible (.one expressions) false) :
    ∃ inner, (∀ part : Part node, part.value = item →
      printer.expression part Precedence.sequence level = .ok (.text inner)) ∧ ∃ signs, IsItem
      Anywhere inner signs := by
  obtain ⟨index, hindex⟩ := List.mem_iff_getElem?.1 hitem
  obtain ⟨part, -, rfl⟩ := Part.item_of_array hheld hindex
  have hreads : Yields _ (printer.expression part Precedence.sequence level) :=
    hreading.expression_reads hlegible rfl
  obtain ⟨_, hprints, inner, rfl, hworded⟩ := hreads
  refine ⟨inner, fun other hother => ?_, _, hworded.item.anywhere⟩
  -- What a part is printed as depends on its value only.
  obtain rfl := hreading.printer_eq
  have hsame : (node.printerIn style noIn).expression other Precedence.sequence level =
      (other.value.print style noIn).expression Precedence.sequence level := rfl
  rw [hsame, hother]
  exact hprints

/-- A template has one piece of text more than it has expressions. -/
theorem template_reads {quasis : List (Part node)} {expressions? : Option (Part node)}
    {items : List Value}
    (hquasis : ∀ quasi ∈ quasis, quasi.value.Legible (.one [.templateElement]) false)
    (hheld : ∀ held ∈ expressions?, held.value = .array items)
    (hsome : items ≠ [] → expressions?.isSome = true)
    (hitems : ∀ item ∈ items, item.Legible (.one expressions) false)
    (hlength : quasis.length = items.length + 1) :
    Yields
      (fun text => text.toList.head? = some '\x60' ∧ ∀ goal, Piece goal text [] .operator anyChar)
      (printer.template (.ok quasis) expressions? level) := by
  have hraws : ∀ quasi ∈ quasis, ∃ raw, quasi.value.HoldsPiece raw := fun quasi hquasi =>
    exists_piece (hquasis quasi hquasi)
  have hinners : ∀ item ∈ items, ∃ inner, (∀ part : Part node, part.value = item →
      printer.expression part Precedence.sequence level = .ok (.text inner)) ∧
        ∃ signs, IsItem Anywhere inner signs := by
    intro item hitem
    obtain ⟨held, rfl⟩ := Option.isSome_iff_exists.1 (hsome (List.ne_nil_of_mem hitem))
    exact hreading.exists_item_text (hheld held rfl) hitem (hitems item hitem)
  choose! raw hraw using hraws
  choose! inner hinner using hinners
  cases quasis with
  | nil => cases hlength
  | cons first rest =>
    rw [List.length_cons, Nat.add_right_cancel_iff] at hlength
    rw [List.forall_mem_cons] at hraw
    let texts := (items.map inner).zip (rest.map raw)
    have hfirsts : texts.map Prod.fst = items.map inner := List.map_fst_zip (by simp [hlength])
    have hseconds : texts.map Prod.snd = rest.map raw := List.map_snd_zip (by simp [hlength])
    have hpieces : List.Forall₂ (fun (quasi : Part node) raw => quasi.value.HoldsPiece raw)
        (first :: rest) (raw first :: texts.map Prod.snd) := by
      rw [hseconds]
      exact .cons hraw.1 (List.forall₂_map_right_iff.2 (List.forall₂_same.2 hraw.2))
    have hprints : List.Forall₂ (fun item text => ∀ part : Part node, part.value = item →
        printer.expression part Precedence.sequence level =
          .ok (.text (Prod.fst text))) items texts := by
      rw [← @List.forall₂_map_right_iff _ _ _ (fun item text => ∀ part : Part node,
        part.value = item → printer.expression part Precedence.sequence
          level = .ok (.text text)) Prod.fst, hfirsts]
      exact List.forall₂_map_right_iff.2 (List.forall₂_same.2 fun item hitem =>
        (hinner item hitem).1)
    obtain ⟨text, htext, hchars⟩ := Printer.template_eq_ok hheld hsome hpieces hprints
    refine ⟨text, htext, by rw [hchars]; rfl, Piece.template hchars hraw.1.choose_spec.2.2
      fun part hpart => ?_⟩
    obtain ⟨hfront, hback⟩ := List.of_mem_zip hpart
    obtain ⟨item, hitem, hitemText⟩ := List.mem_map.1 hfront
    obtain ⟨quasi, hquasi, hquasiText⟩ := List.mem_map.1 hback
    obtain ⟨_, _, _, hpiece⟩ := hraw.2 quasi hquasi
    rw [← hitemText, ← hquasiText]
    exact ⟨hpiece, (hinner item hitem).2⟩

omit hreading in
/-- The lists of a template, one piece of text more than expressions. -/
theorem exists_template_lists {literal : Value} (hliteral : literal.Legible slot false)
    (hkind : literal.kind = .templateLiteral) :
    ∃ pieces items, literal.lookup "quasis" = some (.array pieces) ∧
      literal.lookup "expressions" = some (.array items) ∧
      (∀ piece ∈ pieces, piece.Legible (.one [.templateElement]) false) ∧
      (∀ item ∈ items, item.Legible (.one expressions) false) ∧
      pieces.length = items.length + 1 := by
  obtain ⟨pieces, hquasis, hpieces⟩ := hliteral.exists_array hkind
    (show Kind.slot .templateLiteral "quasis" = .many [.templateElement] from rfl)
  obtain ⟨items, hexpressions, hitems⟩ := hliteral.exists_array hkind
    (show Kind.slot .templateLiteral "expressions" = .many expressions from rfl)
  have hspelling := hliteral.hasSpelling (by simp [hkind])
  simp only [Value.hasSpelling, hkind, itemCount, hquasis, hexpressions, beq_iff_eq] at hspelling
  exact ⟨pieces, items, hquasis, hexpressions, hpieces, hitems, hspelling⟩

theorem templateLiteral_shows (hkind : node.kind = .templateLiteral) :
    Yields (Phrase.Shows .bare isNumeral) (printer.templateLiteral level) := by
  obtain ⟨_, items, hlookup, hexpressions, hpieces, hitems, hlength⟩ :=
    exists_template_lists hreading.legible hkind
  obtain ⟨quasis, hquasis, rfl⟩ := listAt_of_array hlookup
  obtain ⟨held, hheld, harray⟩ := exists_part hexpressions
  obtain ⟨hvalues, hsome⟩ := filter_isTruthy harray
  rw [List.length_map] at hlength
  rw [Printer.templateLiteral, hquasis, hheld]
  refine (hreading.template_reads (fun quasi hquasi => hpieces _ (List.mem_map_of_mem hquasi))
    hvalues hsome hitems hlength).bind fun text htext => .pure ?_
  refine Phrase.shows_bare (.of_any ?_ (htext.2 .operand))
    (not_digits '\x60' rfl (List.mem_of_mem_head? htext.1))
  rw [startsTerm, htext.1]
  rfl

theorem taggedTemplate_shows (hkind : node.kind = .taggedTemplateExpression) :
    Yields (Phrase.Shows .bare isNumeral) (printer.taggedTemplate level) := by
  refine (hreading.operandAt_reads hkind rfl rfl rfl (by decide)).bind fun _ htag => ?_
  obtain ⟨tag, rfl, hworded⟩ := htag
  refine (hreading.legible.require_yields hkind rfl rfl).bind fun quasi hquasi => ?_
  obtain ⟨_, items, hlookup, hexpressions, hpieces, hitems, hlength⟩ :=
    exists_template_lists hquasi (List.mem_singleton.1 hquasi.kind_mem)
  obtain ⟨quasis, hquasis, rfl⟩ := Part.listAt_of_array hlookup
  obtain ⟨held, hheld, harray⟩ := exists_part hexpressions
  obtain ⟨hvalues, hsome⟩ := @filter_isTruthy node (quasi.within held) _ harray
  rw [List.length_map] at hlength
  rw [hquasi.printable.asRecord, ok_bind, hquasis, hheld]
  refine (hreading.template_reads (fun quasi hquasi => hpieces _ (List.mem_map_of_mem hquasi))
    hvalues hsome hitems hlength).bind fun text htext => ?_
  have hmem : '\x60' ∈ (tag ++ text).toList := by simp [List.mem_of_mem_head? htext.1]
  refine .pure (Phrase.shows_bare (.of_any (startsTerm_append hworded.starts _)
    (hworded.loose.append (htext.2 .operator) ?_)) (not_digits '\x60' rfl hmem))
  rw [htext.1]
  rfl

/-- A word or a sign in front of an argument. -/
theorem fronted_shows (hkind : node.kind = kind) (hslot : kind.slot "argument" = .one kinds)
    {front : String} (hfront : Piece .operand front [] .operand isTermStart)
    (hkey : kind.holdsKey (node.flag "computed") "argument" = false)
    (hkinds : kinds.all phrases.contains = true) (hstarts : startsTerm front = true)
    (hstrength : strength < Precedence.call) :
    Yields (Phrase.Shows ⟨node.signsAt style noIn level "argument" strength, strength⟩ isNumeral)
      (printer.fronted front strength level) := by
  refine (hreading.expressionAt_reads hkind hslot hkey hkinds).bind fun _ hvalue => ?_
  obtain ⟨text, rfl, hworded⟩ := hvalue
  exact .pure (Phrase.shows_loose (.of_loose (startsTerm_append hstarts _) hstrength
    (hfront.append hworded.loose hworded.starts)) (.inr rfl) hstrength)

theorem yieldText_shows (hkind : node.kind = .yieldExpression) :
    Yields (Phrase.Shows ⟨node.signsAt style noIn level "argument" Precedence.yield,
        Precedence.yield⟩ isNumeral) (printer.yieldText level) := by
  have hspelling := hreading.legible.hasSpelling (by simp [hkind])
  simp only [Value.hasSpelling, hkind] at hspelling
  refine hreading.given_reads hkind rfl rfl (fun hnone => ?_) fun part hpart hargument => ?_
  · rw [hnone, Option.isSome_none, Bool.or_false, Bool.not_eq_true'] at hspelling
    have hword : Piece .operand "yield" [] .operator isWordEnd := @Piece.word _ _ "yield" rfl rfl
    rw [hspelling, signsAt_of_given?_eq_none hnone]
    exact .pure (Phrase.shows_loose (.of_wordEnd rfl hword) (.inl rfl) (by decide))
  · have hkeyword : Piece .operand ((if node.flag "delegate" then "yield*" else "yield") ++ " ") []
        .operand anyChar := by
      have hyield : Piece .operand "yield" [] .operand isWordEnd := @Piece.word _ _ "yield" rfl rfl
      cases node.flag "delegate" with
      | true =>
        exact (show Piece .operand ("yield" ++ "*") ([] ++ []) .operand isTermStart from
          hyield.append .star rfl).append (.space .operand) rfl
      | false => exact hyield.append (.space .operand) rfl
    have hstarts : startsTerm ((if node.flag "delegate" then "yield*" else "yield") ++ " ") =
        true := by
      cases node.flag "delegate" <;> decide
    rw [signsAt_of_part (Option.filter_eq_some_iff.1 hpart).1]
    refine (hreading.expression_reads hargument rfl).bind fun _ hvalue => ?_
    obtain ⟨text, rfl, hworded⟩ := hvalue
    exact .pure (Phrase.shows_loose (.of_loose (startsTerm_append hstarts _) (by decide)
      (hkeyword.append_any hworded.loose)) (.inr rfl) (by decide))

theorem metaProperty_shows (hkind : node.kind = .metaProperty) :
    Yields (Phrase.Shows .bare isNumeral) printer.metaProperty := by
  have hspelling := hreading.legible.hasSpelling (by simp [hkind])
  simp only [Value.hasSpelling, hkind] at hspelling
  obtain ⟨word, hfound, hcontains⟩ := (Option.any_eq_true _ _).1 hspelling
  obtain ⟨_, hlookup, htext⟩ := Option.bind_eq_some_iff.1 hfound
  obtain ⟨owner, howner, rfl⟩ := require_of_lookup hlookup
  have hwords : ∀ word ∈ ["import", "new"], isWord word = true ∧
      Goal.permits .operand (.word word) .operand = true ∧
        ScriptToken.sign? ⟨.operand, .word word⟩ = none := by decide
  obtain ⟨hword, hpermits, hsign⟩ := hwords word (List.contains_iff_mem.1 hcontains)
  have hfront := Piece.word hword hpermits
  rw [hsign] at hfront
  rw [Printer.metaProperty, howner, ok_bind, name_eq_ok (lookup_of_textAt? htext), ok_bind]
  refine (hreading.legible.require_yields_keyed hkind rfl).bind fun property hproperty => ?_
  refine (hproperty.name_yields (List.mem_singleton.1 hproperty.kind_mem)).bind
    fun name hname => .pure ?_
  obtain ⟨key, rfl, hkey, -⟩ := hname
  have hpiece := hfront.append (Piece.point hkey .operand) (by
    rw [String.toList_append]
    rfl)
  simp only [← String.append_assoc] at hpiece
  exact Phrase.shows_bare (.of_wordEnd (startsTerm_append (startsTerm_append
    (startsTerm_of_word hword) _) _) hpiece) (not_digits '.' rfl (by simp))

/-- Every kind of expression has a rule, and the rule gives a text with the surface that the tree
tells. -/
theorem phrase?_shows (hkind : node.kind ∈ phrases) (level : Int) :
    ∃ step, printer.phrase? level = some step ∧
      Yields (Phrase.Shows (node.surface style noIn level) node.isNumeric) step := by
  rw [Printer.phrase?, surface_eq, surfaceBy]
  cases hnode : node.kind with
  | identifier => exact ⟨_, rfl, hreading.identifier_shows hnode⟩
  | literal => exact ⟨_, rfl, hreading.literal_shows hnode⟩
  | thisExpression | super => exact ⟨_, rfl, .pure (word_shows rfl rfl rfl _)⟩
  | arrayExpression | arrayPattern => exact ⟨_, rfl, hreading.array_shows hnode rfl rfl⟩
  | objectExpression => exact ⟨_, rfl, hreading.object_shows hnode⟩
  | objectPattern => exact ⟨_, rfl, hreading.objectPattern_shows hnode⟩
  | functionExpression =>
    exact ⟨_, rfl, (hreading.function_reads (.inl hnode)).map
      fun _ hdefinition => hdefinition.shows _ _⟩
  | arrowFunctionExpression => exact ⟨_, rfl, hreading.arrowFunction_shows hnode⟩
  | classExpression =>
    exact ⟨_, rfl, (hreading.classText_reads hnode (fun _ => rfl) (.inl rfl) rfl rfl).map
      fun _ hdefinition => hdefinition.shows _ _⟩
  | unaryExpression => exact ⟨_, rfl, hreading.unary_shows hnode⟩
  | updateExpression => exact ⟨_, rfl, hreading.update_shows hnode⟩
  | binaryExpression => exact ⟨_, rfl, hreading.binary_shows (.inl hnode)⟩
  | logicalExpression => exact ⟨_, rfl, hreading.binary_shows (.inr hnode)⟩
  | assignmentExpression => exact ⟨_, rfl, hreading.assignment_shows hnode⟩
  | assignmentPattern => exact ⟨_, rfl, hreading.assignmentPattern_shows hnode⟩
  | conditionalExpression => exact ⟨_, rfl, hreading.conditional_shows hnode⟩
  | callExpression => exact ⟨_, rfl, hreading.call_shows hnode⟩
  | newExpression => exact ⟨_, rfl, hreading.newCall_shows hnode⟩
  | memberExpression => exact ⟨_, rfl, hreading.member_shows hnode⟩
  | sequenceExpression => exact ⟨_, rfl, hreading.sequence_shows hnode⟩
  | templateLiteral => exact ⟨_, rfl, hreading.templateLiteral_shows hnode⟩
  | taggedTemplateExpression => exact ⟨_, rfl, hreading.taggedTemplate_shows hnode⟩
  | spreadElement | restElement =>
    have hdots : Piece .operand "..." [] .operand anyChar := .freeMark (by decide) rfl rfl
    exact ⟨_, rfl, hreading.fronted_shows hnode rfl hdots.narrow rfl rfl rfl (by decide)⟩
  | yieldExpression => exact ⟨_, rfl, hreading.yieldText_shows hnode⟩
  | awaitExpression =>
    have hawait : Piece .operand ("await" ++ " ") [] .operand anyChar :=
      .keyword "await" rfl rfl rfl
    exact ⟨_, rfl, (hreading.fronted_shows hnode rfl hawait.narrow rfl rfl rfl (by decide)).mono
      fun _ hshows => hshows.of_nil (signsAt_eq_nil (by decide))⟩
  | metaProperty => exact ⟨_, rfl, hreading.metaProperty_shows hnode⟩
  | _ =>
    rw [hnode] at hkind
    exact absurd hkind (by decide)

end Reading

end Debundle
