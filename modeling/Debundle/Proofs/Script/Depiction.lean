import Debundle.Proofs.Attempt
import Debundle.Proofs.Script.Lexer
import Debundle.Proofs.Script.Limits
import Debundle.Script.Print

/-!
# Trees of operator expressions

A tree depicts an operator expression if each of its nodes has the kind and the fields
that the form of the expression asks for; what else a node holds does not matter.

The rest of the module says, rule by rule, what such a node is printed as from what its
parts are printed as.
-/

namespace Debundle

open Attempt Operator

namespace Value

/-- The text that a literal is written as. -/
def literalSource (literal : Value) : Except Fault String :=
  match literal.lookup "raw" with
  | some (.text raw) => .ok raw
  | _ => literalText literal.constant

/-- A literal that carries a number. -/
def isNumeric (literal : Value) : Bool :=
  literal.kind == .literal && ((literal.lookup "value").bind Value.number?).isSome

end Value

/-- A tree is made of the nodes of an operator expression. -/
inductive Depicts : Expr → Value → Prop where
  | name {node : Value} {text : String} :
      node.kind = .identifier → node.lookup "name" = some (.text text) →
      Lexer.isWord text = true → text ∉ reservedWords → Depicts (.name text) node
  | self {node : Value} : node.kind = .thisExpression → Depicts .self node
  | literal {node : Value} {text : String} :
      node.kind = .literal → node.literalSource = .ok text → Lexer.isLiteral text = true →
      (Lexer.isNumber text = true → node.isNumeric = true) → Depicts (.literal text) node
  | array {node : Value} {elements : List (Option Expr × Value)} :
      node.kind = .arrayExpression →
      node.lookup "elements" = some (.array (elements.map Prod.snd)) →
      (∀ element ∈ elements, element.1 = none → element.2 = .null) →
      (∀ element ∈ elements, ∀ expr, element.1 = some expr → Depicts expr element.2) →
      Depicts (.array (elements.map Prod.fst)) node
  | unary {node argument : Value} {op : UnaryOp} {expr : Expr} :
      node.kind = .unaryExpression → node.lookup "operator" = some (.text (spelling op)) →
      node.lookup "argument" = some argument → Depicts expr argument →
      Depicts (.unary op expr) node
  | update {node argument : Value} {op : UpdateOp} {target : Expr} :
      node.kind = .updateExpression → node.lookup "operator" = some (.text (spelling op)) →
      node.lookup "argument" = some argument → Depicts target argument →
      target.isTarget = true → Depicts (.update op (node.flag "prefix") target) node
  | binary {node left right : Value} {op : BinaryOp} {first second : Expr} :
      node.kind = op.kind → node.lookup "operator" = some (.text (spelling op)) →
      node.lookup "left" = some left → node.lookup "right" = some right →
      Depicts first left → Depicts second right → Depicts (.binary op first second) node
  | assign {node left right : Value} {op : AssignOp} {target value : Expr} :
      node.kind = .assignmentExpression →
      node.lookup "operator" = some (.text (spelling op)) →
      node.lookup "left" = some left → node.lookup "right" = some right →
      Depicts target left → target.isTarget = true → Depicts value right →
      Depicts (.assign op target value) node
  | conditional {node first second third : Value} {test consequent alternate : Expr} :
      node.kind = .conditionalExpression → node.lookup "test" = some first →
      node.lookup "consequent" = some second → node.lookup "alternate" = some third →
      Depicts test first → Depicts consequent second → Depicts alternate third →
      Depicts (.conditional test consequent alternate) node
  | sequence {node : Value} {items : List (Expr × Value)} :
      node.kind = .sequenceExpression →
      node.lookup "expressions" = some (.array (items.map Prod.snd)) → 2 ≤ items.length →
      (∀ item ∈ items, Depicts item.1 item.2) → Depicts (.sequence (items.map Prod.fst)) node
  | member {node object property : Value} {owner : Expr} {name : String} :
      node.kind = .memberExpression → node.flag "computed" = false →
      node.lookup "object" = some object → node.lookup "property" = some property →
      Depicts owner object → property.kind = .identifier →
      property.lookup "name" = some (.text name) → Lexer.isWord name = true →
      Depicts (.member owner name) node
  | index {node object property : Value} {owner place : Expr} :
      node.kind = .memberExpression → node.flag "computed" = true →
      node.lookup "object" = some object → node.lookup "property" = some property →
      Depicts owner object → Depicts place property → Depicts (.index owner place) node
  | call {node function : Value} {callee : Expr} {items : List (Expr × Value)} :
      node.kind = .callExpression → node.lookup "callee" = some function →
      node.lookup "arguments" = some (.array (items.map Prod.snd)) →
      Depicts callee function → (∀ item ∈ items, Depicts item.1 item.2) →
      Depicts (.call callee (items.map Prod.fst)) node

/-- A place without an element is told from every expression. -/
theorem Depicts.isNull_eq_false {expr : Expr} {node : Value} (hdepicts : Depicts expr node) :
    node.isNull = false := by
  cases node with
  | null => cases hdepicts <;> contradiction
  | _ => rfl

theorem Value.display_text (text : String) : (Value.text text).display = text :=
  rfl

/-- Texts are joined as they are. -/
theorem joined_texts (separator : String) (texts : List String) :
    joined separator (texts.map .text) = .ok (separator.intercalate texts) := by
  have hpieces : ∀ first, ((texts.map Value.text).zipIdx first).mapM
      (fun piece => piece.1.asPiece piece.2) = .ok texts := by
    intro first
    rw [mapM_eq_ok_iff]
    induction texts generalizing first with
    | nil => exact .nil
    | cons text texts ih => exact .cons rfl (ih (first + 1))
  simp only [joined]
  rw [hpieces 0]
  rfl

theorem Value.commaSeparated_texts (texts : List String) :
    commaSeparated (texts.map .text) = .ok (", ".intercalate texts) :=
  joined_texts ", " texts

namespace Printer

variable {node : Value} {printer : Printer node} {level : Int}

theorem phrase?_of_kind {kind : Kind} {step : Except Fault Phrase} (hkind : node.kind = kind)
    (hstep : printer.phraseOf? level kind = some step) : printer.phrase? level = some step := by
  rw [phrase?, hkind, hstep]

theorem statement?_of_kind {kind : Kind} {step : Except Fault String} (hkind : node.kind = kind)
    (hstep : printer.statementOf? level kind = some step) :
    printer.statement? level = some step := by
  rw [statement?, hkind, hstep]

theorem phrase?_name {text : String} (hkind : node.kind = .identifier)
    (hname : node.lookup "name" = some (.text text)) :
    printer.phrase? level = some (.ok (.ofText text Precedence.primary)) := by
  rw [phrase?_of_kind hkind rfl, identifier, Value.name_eq_ok hname]
  rfl

theorem phrase?_self (hkind : node.kind = .thisExpression) :
    printer.phrase? level = some (.ok (.ofText "this" Precedence.primary)) :=
  phrase?_of_kind hkind rfl

/-- Every part of a list is printed in the place of an item. -/
theorem expressions_eq_ok {parts : List (Part node)} {texts : List String}
    (hprints : List.Forall₂ (fun part text =>
      printer.expression part Precedence.assignment level = .ok (.text text)) parts texts) :
    printer.expressions parts level = .ok (texts.map .text) := by
  rw [expressions, mapM_eq_ok_iff, List.forall₂_map_right_iff]
  exact hprints

theorem arguments_eq_ok {parts : List (Part node)} {texts : List String}
    (hparts : node.listAt "arguments" = .ok parts)
    (hprints : List.Forall₂ (fun part text =>
      printer.expression part Precedence.assignment level = .ok (.text text)) parts texts) :
    printer.arguments level = .ok (parenthesized (", ".intercalate texts)) := by
  simp only [arguments, hparts, ok_bind, expressions_eq_ok hprints, Value.commaSeparated_texts]
  rfl

theorem phrase?_call {callee arguments : String} (hkind : node.kind = .callExpression)
    (hcallee : printer.expressionAt "callee" Precedence.call level = .ok (.text callee))
    (harguments : printer.arguments level = .ok arguments) :
    printer.phrase? level = some (.ok (.ofText (callee ++ arguments) Precedence.call)) := by
  rw [phrase?_of_kind hkind rfl]
  simp only [call, ok_bind, hcallee, harguments, Value.add]
  rfl

theorem phrase?_member {property : Value} {owner name : String}
    (hkind : node.kind = .memberExpression) (hcomputed : node.flag "computed" = false)
    (howner : printer.memberOwner level = .ok owner)
    (hproperty : node.lookup "property" = some property)
    (hname : property.lookup "name" = some (.text name)) :
    printer.phrase? level = some (.ok (.ofText (owner ++ "." ++ name) Precedence.member)) := by
  obtain ⟨part, hpart, rfl⟩ := Value.require_of_lookup hproperty
  rw [phrase?_of_kind hkind rfl]
  simp only [member, ok_bind, howner, hcomputed, hpart, Value.name_eq_ok hname, Value.display_text]
  rfl

theorem phrase?_index {owner place : String} (hkind : node.kind = .memberExpression)
    (hcomputed : node.flag "computed" = true) (howner : printer.memberOwner level = .ok owner)
    (hplace : printer.expressionAt "property" Precedence.sequence level = .ok (.text place)) :
    printer.phrase? level =
      some (.ok (.ofText (owner ++ "[" ++ place ++ "]") Precedence.member)) := by
  rw [phrase?_of_kind hkind rfl]
  simp only [member, ok_bind, howner, hcomputed, if_true, hplace, Value.display_text]
  rfl

/-- The owner of a member is put in parentheses if it is an integer. -/
theorem memberOwner_eq_ok {part : Part node} {text : String}
    (hpart : node.require "object" = .ok part)
    (hprints : printer.expression part Precedence.call level = .ok (.text text)) :
    printer.memberOwner level =
      .ok (if part.value.isNumeric && CharSet.digits.spells text then parenthesized text
        else text) := by
  simp only [memberOwner, hpart, ok_bind, hprints, Value.display_text]
  rfl

end Printer

namespace Value

variable {style : Style} {node : Value} {level : Int}

/-- What a node is printed as in a place that asks for a strength. -/
def PrintsAs (node : Value) (style : Style) (strength : Nat) (level : Int) (text : String) :
    Prop :=
  (node.print style false).expression strength level = .ok (.text text)

/-- What a node is printed as, and its own strength. -/
def Shows (node : Value) (style : Style) (level : Int) (text : String) (strength : Nat) :
    Prop :=
  (node.printer style).phrase? level = some (.ok (.ofText text strength))

variable {text first second owner : String} {left right argument property : Value} {op : UnaryOp}
  {texts : List String} {elements : List Value} {pieces : List (Option String)}

theorem Shows.printsAs {own : Nat} (hshows : node.Shows style level text own) (strength : Nat) :
    node.PrintsAs style strength level (if own < strength then parenthesized text else text) := by
  have hprint : node.print style false = (node.printer style).rendition := by
    rw [print]
    rfl
  rw [Shows] at hshows
  simp only [PrintsAs, hprint, Printer.rendition, Printer.asExpression, hshows, Except.map,
    Phrase.inPlace, Phrase.ofText]
  split <;> rfl

theorem expressionAt_eq_ok {key : String} {child : Value} {strength : Nat}
    (hlookup : node.lookup key = some child) (hprints : child.PrintsAs style strength level text) :
    (node.printer style).expressionAt key strength level = .ok (.text text) := by
  obtain ⟨part, hpart, rfl⟩ := exists_part hlookup
  simp only [Printer.expressionAt, require_eq_ok_iff.2 hpart]
  exact hprints

theorem asKey_text (text : String) : asKey .fixed (.text text) = .ok (.text text) :=
  rfl

theorem printer_noIn : (node.printer style).noIn = false :=
  rfl

theorem shows_name (hkind : node.kind = .identifier)
    (hname : node.lookup "name" = some (.text text)) :
    node.Shows style level text Precedence.primary :=
  Printer.phrase?_name hkind hname

theorem shows_self (hkind : node.kind = .thisExpression) :
    node.Shows style level "this" Precedence.primary :=
  Printer.phrase?_self hkind

theorem shows_literal (hkind : node.kind = .literal) (hsource : node.literalSource = .ok text) :
    node.Shows style level text Precedence.primary := by
  have hliteral : (node.printer style).literal =
      node.literalSource.map (Phrase.ofText · Precedence.primary) := by
    rw [Printer.literal, literalSource]
    cases node.lookup "raw" with
    | none => rfl
    | some raw => cases raw <;> rfl
  rw [Shows, Printer.phrase?_of_kind hkind rfl]
  simp only [hliteral, hsource]
  rfl

theorem shows_binary {op : BinaryOp} (hkind : node.kind = op.kind)
    (hop : node.lookup "operator" = some (.text (spelling op)))
    (hleft : node.lookup "left" = some left) (hright : node.lookup "right" = some right)
    (hfirst : left.PrintsAs style op.leftLevel level first)
    (hsecond : right.PrintsAs style op.rightLevel level second) :
    node.Shows style level (first ++ " " ++ spelling op ++ " " ++ second) op.level := by
  have hphrase : (node.printer style).phrase? level = some ((node.printer style).binary level) := by
    have hkinds : op.kind = .binaryExpression ∨ op.kind = .logicalExpression := by
      cases op <;> decide
    rcases hkinds with hop | hop <;> exact Printer.phrase?_of_kind (hkind.trans hop) rfl
  obtain ⟨part, hpart, hvalue⟩ := require_of_lookup hop
  have hstrength : Precedence.ofOperator (spelling op) = op.level := by cases op <;> rfl
  have hlevels : (if spelling op == "**" then Precedence.update else op.level) = op.leftLevel ∧
      (if spelling op == "**" then op.level else op.level + 1) = op.rightLevel := by
    cases op <;> decide
  rw [Shows, hphrase]
  simp only [Printer.binary, hpart, ok_bind, hvalue, asKey_text, display_text, hstrength,
    hlevels, expressionAt_eq_ok hleft hfirst, expressionAt_eq_ok hright hsecond, printer_noIn,
    Bool.and_false, Bool.false_eq_true, if_false]
  rfl

theorem shows_assign {op : AssignOp} (hkind : node.kind = .assignmentExpression)
    (hop : node.lookup "operator" = some (.text (spelling op)))
    (hleft : node.lookup "left" = some left) (hright : node.lookup "right" = some right)
    (hfirst : left.PrintsAs style Precedence.call level first)
    (hsecond : right.PrintsAs style Precedence.assignment level second) :
    node.Shows style level (first ++ " " ++ spelling op ++ " " ++ second)
      Precedence.assignment := by
  obtain ⟨part, hpart, hvalue⟩ := require_of_lookup hop
  rw [Shows, Printer.phrase?_of_kind hkind rfl]
  simp only [Printer.assignment, ok_bind,
    hpart, hvalue, display_text, expressionAt_eq_ok hleft hfirst, expressionAt_eq_ok hright hsecond]
  rfl

theorem shows_conditional {first second third : Value} {test consequent alternate : String}
    (hkind : node.kind = .conditionalExpression) (hfirst : node.lookup "test" = some first)
    (hsecond : node.lookup "consequent" = some second)
    (hthird : node.lookup "alternate" = some third)
    (htest : first.PrintsAs style Precedence.logicalOr level test)
    (hconsequent : second.PrintsAs style Precedence.assignment level consequent)
    (halternate : third.PrintsAs style Precedence.assignment level alternate) :
    node.Shows style level (test ++ " ? " ++ consequent ++ " : " ++ alternate)
      Precedence.conditional := by
  rw [Shows, Printer.phrase?_of_kind hkind rfl]
  simp only [Printer.conditional, ok_bind,
    display_text, expressionAt_eq_ok hfirst htest, expressionAt_eq_ok hsecond hconsequent,
    expressionAt_eq_ok hthird halternate]
  rfl

theorem spells_letters (op : UnaryOp) :
    CharSet.letters.spells (spelling op) = op.sign?.isNone := by
  cases op <;> decide +kernel

/-- An operator that is a word is set off by a space. -/
theorem shows_keyword (hkind : node.kind = .unaryExpression)
    (hop : node.lookup "operator" = some (.text (spelling op))) (hsign : op.sign? = none)
    (hargument : node.lookup "argument" = some argument)
    (hprints : argument.PrintsAs style Precedence.unary level text) :
    node.Shows style level (spelling op ++ " " ++ text) Precedence.unary := by
  obtain ⟨part, hpart, hvalue⟩ := require_of_lookup hop
  have hspells : CharSet.letters.spells (spelling op) = true := by
    rw [spells_letters, hsign]
    rfl
  rw [Shows, Printer.phrase?_of_kind hkind rfl]
  simp only [Printer.unary, ok_bind,
    hpart, hvalue, expressionAt_eq_ok hargument hprints, hspells, if_true, display_text]
  rfl

/-- A space keeps two signs apart. -/
theorem shows_signed {sign : Char} (hkind : node.kind = .unaryExpression)
    (hop : node.lookup "operator" = some (.text (spelling op))) (hsign : op.sign? = some sign)
    (hargument : node.lookup "argument" = some argument)
    (hprints : argument.PrintsAs style Precedence.unary level text) :
    node.Shows style level
      (spelling op ++ (if text.toList.head? == some sign && (sign == '+' || sign == '-') then " "
        else "") ++ text) Precedence.unary := by
  obtain ⟨part, hpart, hvalue⟩ := require_of_lookup hop
  have hspells : CharSet.letters.spells (spelling op) = false := by
    rw [spells_letters, hsign]
    rfl
  have hlast : (spelling op).toList.getLast? = some sign := by
    cases op <;> cases hsign <;> rfl
  rw [Shows, Printer.phrase?_of_kind hkind rfl]
  simp only [Printer.unary, ok_bind,
    hpart, hvalue, expressionAt_eq_ok hargument hprints, hspells, Bool.false_eq_true, if_false,
    asStarting, hlast]
  rfl

theorem shows_update {op : UpdateOp} (hkind : node.kind = .updateExpression)
    (hop : node.lookup "operator" = some (.text (spelling op)))
    (hargument : node.lookup "argument" = some argument)
    (hprints : argument.PrintsAs style Precedence.update level text) :
    node.Shows style level
      (if node.flag "prefix" then spelling op ++ text else text ++ spelling op)
      (if node.flag "prefix" then Precedence.unary else Precedence.update) := by
  obtain ⟨part, hpart, hvalue⟩ := require_of_lookup hop
  rw [Shows, Printer.phrase?_of_kind hkind rfl]
  simp only [Printer.update, ok_bind, hpart, hvalue, expressionAt_eq_ok hargument hprints, add]
  split <;> rfl

/-- Every part of a list is printed in the place of an item. -/
theorem expressions_eq_ok {parts : List (Part node)} {texts : List String}
    (hprints : List.Forall₂ (fun item => PrintsAs item style Precedence.assignment level)
      (parts.map Part.value) texts) :
    (node.printer style).expressions parts level = .ok (texts.map .text) :=
  Printer.expressions_eq_ok (List.forall₂_map_left_iff.1 hprints)

theorem shows_call {function : Value} {arguments : List Value} {callee : String}
    (hkind : node.kind = .callExpression) (hfunction : node.lookup "callee" = some function)
    (harguments : node.lookup "arguments" = some (.array arguments))
    (hcallee : function.PrintsAs style Precedence.call level callee)
    (hprints : List.Forall₂ (fun item => PrintsAs item style Precedence.assignment level)
      arguments texts) :
    node.Shows style level (callee ++ parenthesized (", ".intercalate texts)) Precedence.call := by
  obtain ⟨parts, hparts, rfl⟩ := listAt_of_array harguments
  exact Printer.phrase?_call hkind (expressionAt_eq_ok hfunction hcallee)
    (Printer.arguments_eq_ok hparts (List.forall₂_map_left_iff.1 hprints))

theorem shows_sequence {items : List Value} (hkind : node.kind = .sequenceExpression)
    (hitems : node.lookup "expressions" = some (.array items))
    (hprints : List.Forall₂ (fun item => PrintsAs item style Precedence.assignment level)
      items texts) : node.Shows style level (", ".intercalate texts) Precedence.sequence := by
  obtain ⟨part, hpart, hvalue⟩ := require_of_lookup hitems
  have helements : part.elements.map (List.map Part.value) = .ok items := by
    rw [Part.elements_map_value, hvalue]
    rfl
  obtain ⟨parts, hparts, rfl⟩ := map_eq_ok_iff.1 helements
  rw [Shows, Printer.phrase?_of_kind hkind rfl]
  simp only [Printer.sequence, ok_bind,
    hpart, hparts, expressions_eq_ok hprints, commaSeparated_texts]
  rfl

/-- The pieces of an array, with nothing at the holes but a comma at the last one. -/
def arrayBody (pieces : List (Option String)) : String :=
  ", ".intercalate (pieces.map (·.getD "")) ++
    if pieces.getLast?.any Option.isNone then "," else ""

theorem arrayBody_last (text : String) : arrayBody [some text] = text := by
  simp [arrayBody]

theorem arrayBody_cons (piece next : Option String) (rest : List (Option String)) :
    arrayBody (piece :: next :: rest) = piece.getD "" ++ ", " ++ arrayBody (next :: rest) := by
  simp only [arrayBody, List.map_cons, String.intercalate_cons_cons, List.getLast?_cons_cons,
    String.append_assoc]

def arrayText (pieces : List (Option String)) : String :=
  "[" ++ (arrayBody pieces ++ "]")

theorem arrayText_eq (pieces : List (Option String)) :
    "[" ++ ", ".intercalate (pieces.map (·.getD "")) ++
      (if pieces.getLast?.any Option.isNone then "," else "") ++ "]" = arrayText pieces := by
  rw [arrayText, arrayBody, String.append_assoc, String.append_assoc, String.append_assoc]

theorem map_isNull {prints : Value → String → Prop}
    (hprints : List.Forall₂ (fun element piece => element.isNull = piece.isNone ∧
      ∀ text, piece = some text → prints element text) elements pieces) :
    elements.map isNull = pieces.map Option.isNone := by
  induction hprints with
  | nil => rfl
  | cons hfirst _ ih => rw [List.map_cons, List.map_cons, hfirst.1, ih]

theorem shows_array (hkind : node.kind = .arrayExpression)
    (helements : node.lookup "elements" = some (.array elements))
    (hprints : List.Forall₂ (fun element piece => element.isNull = piece.isNone ∧
      ∀ text, piece = some text → element.PrintsAs style Precedence.assignment level text)
      elements pieces) : node.Shows style level (arrayText pieces) Precedence.primary := by
  obtain ⟨parts, hparts, rfl⟩ := listAt_of_array helements
  have hgap : parts.getLast?.any (fun part => part.value.isNull) =
      pieces.getLast?.any Option.isNone := by
    have hflags := congrArg (fun flags => flags.getLast?.any id) (map_isNull hprints)
    simpa [List.getLast?_map, Option.any_map, Function.comp_def] using hflags
  have hpieces : parts.mapM (fun part => if part.value.isNull then pure (.text "")
      else (node.printer style).expression part Precedence.assignment level) =
      .ok (pieces.map fun piece => .text (piece.getD "")) := by
    rw [mapM_eq_ok_iff, List.forall₂_map_right_iff]
    apply (List.forall₂_map_left_iff.1 hprints).imp
    intro part piece hpiece
    cases piece with
    | none => exact if_pos hpiece.1
    | some text => exact (if_neg (Bool.eq_false_iff.1 hpiece.1)).trans (hpiece.2 text rfl)
  have hseparated : commaSeparated (pieces.map fun piece => .text (piece.getD "")) =
      .ok (", ".intercalate (pieces.map (·.getD ""))) := by
    rw [← commaSeparated_texts, List.map_map]
    rfl
  rw [Shows, Printer.phrase?_of_kind hkind rfl]
  simp only [Printer.array, ok_bind, hparts, hpieces, hgap, hseparated, ← arrayText_eq]
  rfl

/-- The owner of a member is put in parentheses if it is an integer. -/
theorem memberOwner_eq_ok {object : Value} {text : String}
    (hobject : node.lookup "object" = some object)
    (hprints : object.PrintsAs style Precedence.call level text) :
    (node.printer style).memberOwner level =
      .ok (if object.isNumeric && CharSet.digits.spells text then parenthesized text
        else text) := by
  obtain ⟨part, hpart, rfl⟩ := require_of_lookup hobject
  exact Printer.memberOwner_eq_ok hpart hprints

theorem shows_member {name : String} (hkind : node.kind = .memberExpression)
    (hcomputed : node.flag "computed" = false)
    (howner : (node.printer style).memberOwner level = .ok owner)
    (hproperty : node.lookup "property" = some property)
    (hname : property.lookup "name" = some (.text name)) :
    node.Shows style level (owner ++ "." ++ name) Precedence.member :=
  Printer.phrase?_member hkind hcomputed howner hproperty hname

theorem shows_index {place : String} (hkind : node.kind = .memberExpression)
    (hcomputed : node.flag "computed" = true)
    (howner : (node.printer style).memberOwner level = .ok owner)
    (hproperty : node.lookup "property" = some property)
    (hplace : property.PrintsAs style Precedence.sequence level place) :
    node.Shows style level (owner ++ "[" ++ place ++ "]") Precedence.member :=
  Printer.phrase?_index hkind hcomputed howner (expressionAt_eq_ok hproperty hplace)

end Value

end Debundle
