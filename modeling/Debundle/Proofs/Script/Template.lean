import Debundle.Proofs.Script.Operand

/-!
# Lexemes of templates

A template is written as pieces of text with expressions between them.  The text of a piece
holds neither a backtick nor the start of an expression, unless a backslash stands in front.
-/

namespace Debundle

open Attempt

namespace Lexer

/-- The text of a piece can be told from what ends it. -/
def isPiece : List Char → Bool
  | [] => true
  | '\x60' :: _ => false
  | '$' :: '\x7b' :: _ => false
  | '\\' :: _ :: rest => isPiece rest
  | ['\\'] => false
  | _ :: rest => isPiece rest

theorem templateCut?_append {seen raw rest : List Char} (hpiece : isPiece raw = true)
    (hrest : rest.head? ≠ some '\x7b') :
    templateCut? seen (raw ++ rest) = templateCut? (seen ++ raw) rest := by
  fun_induction isPiece raw generalizing seen with
  | case1 => simp
  | case2 => cases hpiece
  | case3 => cases hpiece
  | case4 char raw ih =>
    rw [List.cons_append, List.cons_append, templateCut?, ih hpiece, List.append_assoc]
    rfl
  | case5 => cases hpiece
  | case6 char raw htick hbrace hslash hend ih =>
    have hplain : templateCut? seen (char :: (raw ++ rest)) =
        templateCut? (seen ++ [char]) (raw ++ rest) := by
      refine templateCut?.eq_5 seen char _ htick (fun tail hchar htail => ?_)
        fun next tail hchar htail => ?_
      · cases raw with
        | nil => exact hrest (congrArg List.head? htail)
        | cons first raw =>
          cases htail
          exact hbrace raw hchar rfl
      · cases raw with
        | nil => exact hend hchar rfl
        | cons first raw => exact hslash first raw hchar rfl
    rw [List.cons_append, hplain, ih hpiece, List.append_assoc, List.singleton_append]

/-- What is written behind the first piece: the expressions, each with the piece behind it. -/
def templateTail : List (List Char × List Char) → List Char
  | [] => ['\x60']
  | (inner, raw) :: rest => '$' :: '\x7b' :: (inner ++ '\x7d' :: (raw ++ templateTail rest))

/-- The lexemes of a template from a piece on, of which the first character is given. -/
def templateLexemes (start : Char) (raw : List Char) : List (List Lexeme × List Char) → List Lexeme
  | [] => [.literal (.ofList (start :: raw ++ ['\x60']))]
  | (inner, next) :: rest =>
    .literal (.ofList (start :: raw ++ ['$', '\x7b'])) ::
      (inner ++ templateLexemes '\x7d' next rest)

/-- An expression in a template is read as its lexemes, and the piece behind it is one. -/
structure Interpolates (written : List Char × List Char) (found : List Lexeme × List Char) :
    Prop where
  scans : ∃ after, Scans .script .operand written.1 found.1 after closes
  raw_eq : written.2 = found.2
  isPiece : isPiece written.2 = true

section

variable {context : Context} {goal : Goal} {start : Char} {raw rest : List Char}
  {brackets : List (Bracket × Goal)} {parts : List (List Char × List Char)}
  {pieces : List (List Lexeme × List Char)}

/-- A piece is started by a backtick, or by the brace behind an expression. -/
theorem Context.cut?_piece (hstart : start = '\x60' ∨ start = '\x7d' ∧ context.isInTemplate = true)
    (hpiece : isPiece raw = true) (hrest : rest.head? ≠ some '\x7b') :
    context.cut? start (raw ++ rest) = templateCut? (start :: raw) rest := by
  have hpieces : (start == '\x60' || (start == '\x7d' && context.isInTemplate)) = true := by
    obtain rfl | ⟨rfl, hinside⟩ := hstart
    · rfl
    · rw [hinside]
      rfl
  rw [Context.cut?, hpieces, if_pos rfl, templateCut?_append hpiece hrest]
  rfl

theorem not_blank_start (hstart : start = '\x60' ∨ start = '\x7d' ∧ context.isInTemplate = true) :
    isBlank start = false := by
  obtain rfl | ⟨rfl, -⟩ := hstart <;> decide

/-- A piece ends with the backtick of the template, or where an expression starts. -/
theorem lexFrom_piece {ending : List Char}
    (hstart : start = '\x60' ∨ start = '\x7d' ∧ context.isInTemplate = true)
    (hending : ending = ['\x60'] ∨ ending = ['$', '\x7b']) (hpiece : isPiece raw = true) :
    lexFrom .script context (start :: (raw ++ (ending ++ rest))) =
      (lexFrom .script (context.after (.literal (.ofList (start :: raw ++ ending)))) rest).map
        (.literal (.ofList (start :: raw ++ ending)) :: ·) := by
  refine lexFrom_cut (not_blank_start hstart) ?_
  obtain rfl | rfl := hending
  · rw [Context.cut?_piece hstart hpiece (by simp), List.singleton_append, templateCut?]
  · rw [Context.cut?_piece hstart hpiece (by simp), List.cons_append, List.singleton_append,
      templateCut?]

/-- The part that a piece has among the brackets is told by its first and its last character. -/
theorem role_piece {ending : List Char} {last : Char} (start : Char) (raw : List Char)
    (hlast : ending.getLast? = some last) :
    (Lexeme.literal (.ofList (start :: raw ++ ending))).role =
      (Lexeme.literal (.ofList [start, last])).role := by
  have hfinal : (start :: raw ++ ending).getLast? = some last := by
    rw [List.getLast?_append, hlast]
    rfl
  simp only [Lexeme.role, String.toList_ofList, hfinal]
  rfl

theorem templateTail_cons (part : List Char × List Char) (parts : List (List Char × List Char))
    (rest : List Char) : templateTail (part :: parts) ++ rest =
      ['$', '\x7b'] ++ (part.1 ++ '\x7d' :: (part.2 ++ (templateTail parts ++ rest))) := by
  simp [templateTail]

theorem lexFrom_templateTail (hparts : List.Forall₂ Interpolates parts pieces)
    (hpiece : isPiece raw = true) :
    lexFrom .script ⟨goal, false, (.template, .operator) :: brackets⟩
        ('\x7d' :: (raw ++ (templateTail parts ++ rest))) =
      (lexFrom .script ⟨.operator, false, brackets⟩ rest).map
        (templateLexemes '\x7d' raw pieces ++ ·) := by
  induction hparts generalizing raw goal with
  | nil =>
    have hrole : (Lexeme.literal (.ofList ('\x7d' :: raw ++ ['\x60']))).role =
        .closes .template := (role_piece _ _ rfl).trans rfl
    rw [templateTail, lexFrom_piece (.inr ⟨rfl, rfl⟩) (.inl rfl) hpiece, Context.after, hrole]
    rfl
  | @cons part piece parts pieces hpart _ ih =>
    have hrole : (Lexeme.literal (.ofList ('\x7d' :: raw ++ ['$', '\x7b']))).role =
        .divides := (role_piece _ _ rfl).trans rfl
    obtain ⟨after, hscans⟩ := hpart.scans
    rw [templateTail_cons, lexFrom_piece (.inr ⟨rfl, rfl⟩) (.inr rfl) hpiece, Context.after, hrole]
    simp only
    rw [hscans.lexFrom_cons rfl, ih hpart.isPiece, Option.map_map, Option.map_map, hpart.raw_eq]
    congr 1
    funext found
    exact congrArg (_ :: ·) (List.append_assoc _ _ _).symm

/-- A template is read from its first backtick to its last one. -/
theorem Scans.template (goal : Goal) (hparts : List.Forall₂ Interpolates parts pieces)
    (hpiece : isPiece raw = true) :
    Scans .script goal ('\x60' :: (raw ++ templateTail parts)) (templateLexemes '\x60' raw pieces)
      .operator anyChar := by
  intro brackets rest _
  rw [List.cons_append, List.append_assoc]
  cases hparts with
  | nil =>
    have hrole : (Lexeme.literal (.ofList ('\x60' :: raw ++ ['\x60']))).role = .plain :=
      (role_piece _ _ rfl).trans rfl
    rw [templateTail, lexFrom_piece (.inl rfl) (.inl rfl) hpiece,
      Context.after_plain hrole (.inr fun word _ => Lexeme.noConfusion),
      goalAfter_of_ne Lexeme.noConfusion]
    rfl
  | @cons part piece parts pieces hpart hparts =>
    have hrole : (Lexeme.literal (.ofList ('\x60' :: raw ++ ['$', '\x7b']))).role =
        .opens .template := (role_piece _ _ rfl).trans rfl
    obtain ⟨after, hscans⟩ := hpart.scans
    rw [templateTail_cons, lexFrom_piece (.inl rfl) (.inr rfl) hpiece, Context.after, hrole]
    simp only
    rw [hscans.lexFrom_cons rfl, Context.goalBehind,
      lexFrom_templateTail hparts hpart.isPiece, Option.map_map, Option.map_map, hpart.raw_eq]
    congr 1
    funext found
    exact congrArg (_ :: ·) (List.append_assoc _ _ _).symm

end

/-- What follows the first piece is a row of expressions, each with a piece behind it. -/
theorem exists_row_templateLexemes {inner : List Lexeme} {raw : List Char}
    {pieces : List (List Lexeme × List Char)} (hinner : Closed [] inner)
    (hclosed : ∀ piece ∈ pieces, Closed [] piece.1) :
    ∃ segments, Row [] (·.role = .divides) (·.role = .closes .template) segments
      (inner ++ templateLexemes '\x7d' raw pieces) := by
  induction pieces generalizing inner raw with
  | nil => exact ⟨_, .last hinner ((role_piece _ _ rfl).trans rfl)⟩
  | cons piece pieces ih =>
    rw [List.forall_mem_cons] at hclosed
    obtain ⟨segments, hrow⟩ := @ih piece.1 piece.2 hclosed.1 hclosed.2
    exact ⟨_, .more hinner ((role_piece _ _ rfl).trans rfl) hrow⟩

theorem isTemplate_templateLexemes {raw : List Char} {pieces : List (List Lexeme × List Char)}
    (hclosed : ∀ piece ∈ pieces, Closed [] piece.1) :
    IsTemplate (templateLexemes '\x60' raw pieces) := by
  cases pieces with
  | nil =>
    refine .whole ?_ ((role_piece _ _ rfl).trans rfl)
    rw [String.toList_ofList]
    rfl
  | cons piece pieces =>
    rw [List.forall_mem_cons] at hclosed
    obtain ⟨segments, hrow⟩ := @exists_row_templateLexemes _ piece.2 _ hclosed.1 hclosed.2
    exact .pieces ((role_piece _ _ rfl).trans rfl) hrow

end Lexer

open Lexer

/-- The text of a piece of a template. -/
def Value.HoldsPiece (quasi : Value) (raw : String) : Prop :=
  ∃ value, quasi.lookup "value" = some value ∧ value.lookup "raw" = some (.text raw) ∧
    isPiece raw.toList = true

/-- An expression in a template and the piece behind it. -/
structure Interpolation where
  expression : Value
  lexemes : List Lexeme
  quasi : Value
  raw : String

/-- A node is a template with a first piece and expressions with a piece behind each of them. -/
structure DepictsTemplate (style : Style) (noIn : Bool) (node quasi : Value) (raw : String)
    (parts : List Interpolation) : Prop where
  quasis : node.lookup "quasis" = some (.array (quasi :: parts.map Interpolation.quasi))
  expressions : node.lookup "expressions" = some (.array (parts.map Interpolation.expression))
  first : quasi.HoldsPiece raw
  pieces : ∀ part ∈ parts, part.quasi.HoldsPiece part.raw
  spells : ∀ part ∈ parts, part.expression.Spells style noIn Precedence.sequence part.lexemes
  closed : ∀ part ∈ parts, Closed [] part.lexemes

/-! ### Texts of templates -/

/-- The texts that a template is put together from: a piece and an expression in braces, as long
as there is one. -/
def templateTexts (raw : String) : List (String × String) → List (List String)
  | [] => [[raw]]
  | (inner, next) :: rest => [raw, "$\x7b" ++ inner ++ "\x7d"] :: templateTexts next rest

theorem toList_intercalate_nothing (texts : List String) :
    ("".intercalate texts).toList = (texts.map String.toList).flatten := by
  induction texts with
  | nil => rfl
  | cons text texts ih =>
    cases texts with
    | nil => simp
    | cons next rest =>
      rw [String.intercalate_cons_cons, String.append_empty, String.toList_append, ih]
      rfl

theorem flatten_templateTexts (raw : String) (parts : List (String × String)) :
    (((templateTexts raw parts).flatten ++ ["\x60"]).map String.toList).flatten =
      raw.toList ++ templateTail (parts.map fun part => (part.1.toList, part.2.toList)) := by
  induction parts generalizing raw with
  | nil => simp [templateTexts, templateTail]
  | cons part parts ih => simpa [templateTexts, templateTail] using ih part.2

namespace Printer

variable {node : Value} {printer : Printer node} {level : Int} {quasi : Part node} {raw : String}
  {items : List Value} {index : Nat}

/-- The piece behind the last expression stands alone. -/
theorem templatePiece_last {expressions : Option (Part node)} (hraw : quasi.value.HoldsPiece raw)
    (hheld : ∀ held ∈ expressions, held.value = .array items) (hdone : items.length ≤ index) :
    printer.templatePiece expressions quasi index level = .ok [.text raw] := by
  obtain ⟨value, hvalue, htext, -⟩ := hraw
  obtain ⟨outer, houter, rfl⟩ := Part.require_of_lookup hvalue
  obtain ⟨inner, hinner, hinnerText⟩ := Part.require_of_lookup htext
  simp only [templatePiece, houter, hinner, ok_bind, hinnerText]
  cases expressions with
  | none => rfl
  | some held =>
    simp only [hheld held rfl, Value.length, ok_bind, if_neg (Nat.not_lt_of_le hdone)]
    rfl

theorem templatePiece_more {held : Part node} {item : Value} {text : String}
    (hraw : quasi.value.HoldsPiece raw) (hheld : held.value = .array items)
    (hitem : items[index]? = some item)
    (hprints : ∀ part : Part node, part.value = item →
      printer.expression part Precedence.sequence level = .ok (.text text)) :
    printer.templatePiece (some held) quasi index level =
      .ok [.text raw, .text ("$\x7b" ++ text ++ "\x7d")] := by
  obtain ⟨value, hvalue, htext, -⟩ := hraw
  obtain ⟨outer, houter, rfl⟩ := Part.require_of_lookup hvalue
  obtain ⟨inner, hinner, hinnerText⟩ := Part.require_of_lookup htext
  obtain ⟨part, hpart, hpartValue⟩ := Part.item_of_array hheld hitem
  have hindex : index < items.length := (List.getElem?_eq_some_iff.1 hitem).1
  simp only [templatePiece, houter, hinner, ok_bind, hinnerText, hheld, Value.length,
    if_pos hindex, hpart, hprints part hpartValue]
  rfl

/-- Every expression stands behind the piece of the same index. -/
theorem mapM_templatePiece {expressions : Option (Part node)} {items : List Value} {start : Nat}
    {quasis : List (Part node)} {texts : List (String × String)}
    (hheld : ∀ held ∈ expressions, held.value = .array items)
    (hsome : items ≠ [] → expressions.isSome = true)
    (hraws : List.Forall₂ (fun quasi raw => quasi.value.HoldsPiece raw) quasis
      (raw :: texts.map Prod.snd))
    (hitems : List.Forall₂ (fun item text => ∀ part : Part node, part.value = item →
      printer.expression part Precedence.sequence level = .ok (.text text.1))
        (items.drop start) texts) :
    (quasis.zipIdx start).mapM (fun entry =>
      printer.templatePiece expressions entry.1 entry.2 level) =
        .ok ((templateTexts raw texts).map (List.map .text)) := by
  rw [mapM_eq_ok_iff]
  induction texts generalizing raw start quasis with
  | nil =>
    obtain ⟨quasi, rest, hraw, hrest, rfl⟩ := List.forall₂_cons_right_iff.1 hraws
    cases hrest
    have hdone : items.length ≤ start :=
      List.drop_eq_nil_iff.1 (List.forall₂_nil_right_iff.1 hitems)
    exact .cons (templatePiece_last hraw hheld hdone) .nil
  | cons text texts ih =>
    obtain ⟨quasi, rest, hraw, hrest, rfl⟩ := List.forall₂_cons_right_iff.1 hraws
    obtain ⟨item, more, hitem, hmore, hdrop⟩ := List.forall₂_cons_right_iff.1 hitems
    have hfound : items[start]? = some item := by
      rw [← List.head?_drop, hdrop]
      rfl
    have htail : items.drop (start + 1) = more := by
      rw [← List.tail_drop, hdrop]
      rfl
    obtain ⟨held, rfl⟩ : ∃ held, expressions = some held := by
      refine Option.isSome_iff_exists.1 (hsome fun hnil => ?_)
      rw [hnil] at hfound
      cases hfound
    rw [← htail] at hmore
    exact .cons (templatePiece_more hraw (hheld held rfl) hfound hitem) (ih hrest hmore)

/-- A template is printed from its first backtick to its last one. -/
theorem template_eq_ok {expressions : Option (Part node)} {quasis : List (Part node)}
    {texts : List (String × String)} (hheld : ∀ held ∈ expressions, held.value = .array items)
    (hsome : items ≠ [] → expressions.isSome = true)
    (hraws : List.Forall₂ (fun quasi raw => quasi.value.HoldsPiece raw) quasis
      (raw :: texts.map Prod.snd))
    (hitems : List.Forall₂ (fun item text => ∀ part : Part node, part.value = item →
      printer.expression part Precedence.sequence level = .ok (.text text.1)) items texts) :
    ∃ text, printer.template (.ok quasis) expressions level = .ok text ∧
      text.toList = '\x60' :: (raw.toList ++
        templateTail (texts.map fun part => (part.1.toList, part.2.toList))) := by
  have hpieces := @mapM_templatePiece _ _ _ _ _ _ 0 _ _ hheld hsome hraws hitems
  have hjoined : joined "" ([.text "\x60"] ++ ((templateTexts raw texts).map
      (List.map Value.text)).flatten ++ [.text "\x60"]) =
        .ok ("".intercalate ("\x60" :: ((templateTexts raw texts).flatten ++ ["\x60"]))) := by
    rw [← joined_texts]
    simp [List.map_flatten]
  refine ⟨"".intercalate ("\x60" :: ((templateTexts raw texts).flatten ++ ["\x60"])), ?_, ?_⟩
  · simp only [template, ok_bind]
    rw [hpieces]
    exact hjoined
  · rw [toList_intercalate_nothing, List.map_cons, List.flatten_cons, flatten_templateTexts]
    rfl

end Printer

theorem Printer.phrase?_tagged {node : Value} {printer : Printer node} {level : Int}
    {tag text : String} {quasi : Part node} (hkind : node.kind = .taggedTemplateExpression)
    (htag : printer.expressionAt "tag" Precedence.call level = .ok (.text tag))
    (hquasi : node.require "quasi" = .ok quasi) (hrecord : quasi.value.asRecord = .ok ())
    (htext : printer.template (quasi.listAt "quasis") (((quasi.value.part? "expressions").map
      quasi.within).filter fun part => part.value.isTruthy) level = .ok text) :
    printer.phrase? level = some (.ok (.ofText (tag ++ text) Precedence.call)) := by
  rw [Printer.phrase?_of_kind hkind rfl]
  simp only [Printer.taggedTemplate, ok_bind, htag, hquasi, hrecord, htext, Value.add]
  rfl

section

variable {style : Style} {noIn : Bool} {node : Value} {parts : List Interpolation}

/-- What the expressions of a template are printed as. -/
theorem exists_interpolations (hpieces : ∀ part ∈ parts, part.quasi.HoldsPiece part.raw)
    (hspells : ∀ part ∈ parts, part.expression.Spells style noIn Precedence.sequence part.lexemes)
    (level : Int) :
    ∃ texts : List (String × String),
      List.Forall₂ (fun quasi raw => Value.HoldsPiece quasi raw) (parts.map Interpolation.quasi)
        (texts.map Prod.snd) ∧
      List.Forall₂ (fun item text => (Value.print style noIn item).expression
        Precedence.sequence level = .ok (.text text.1)) (parts.map Interpolation.expression)
          texts ∧
      List.Forall₂ Interpolates (texts.map fun text => (text.1.toList, text.2.toList))
        (parts.map fun part => (part.lexemes, part.raw.toList)) := by
  induction parts with
  | nil => exact ⟨[], .nil, .nil, .nil⟩
  | cons part parts ih =>
    rw [List.forall_mem_cons] at hpieces hspells
    obtain ⟨text, after, hprints, hscans⟩ := hspells.1 level
    obtain ⟨texts, hraws, hitems, hparts⟩ := ih hpieces.2 hspells.2
    obtain ⟨_, _, _, hpiece⟩ := hpieces.1
    exact ⟨(text, part.raw) :: texts, .cons hpieces.1 hraws, .cons hprints hitems,
      .cons ⟨⟨after, hscans⟩, rfl, hpiece⟩ hparts⟩

/-- What the template behind a tag is printed as. -/
theorem exists_template {quasi : Part node} {first : Value} {raw : String}
    (hdepicts : DepictsTemplate style noIn quasi.value first raw parts) (level : Int) :
    ∃ text, (node.printerIn style noIn).template (quasi.listAt "quasis")
        (((quasi.value.part? "expressions").map quasi.within).filter
          fun part => part.value.isTruthy) level = .ok text ∧
      ∃ rest, text.toList = '\x60' :: rest ∧
        Scans .script .operator ('\x60' :: rest) (templateLexemes '\x60' raw.toList
          (parts.map fun part => (part.lexemes, part.raw.toList))) .operator anyChar := by
  obtain ⟨texts, hraws, hitems, hparts⟩ :=
    exists_interpolations hdepicts.pieces hdepicts.spells level
  obtain ⟨quasis, hquasis, hvalues⟩ := Part.listAt_of_array hdepicts.quasis
  obtain ⟨held, hheld, harray⟩ := Value.exists_part hdepicts.expressions
  obtain ⟨_, _, _, hpiece⟩ := hdepicts.first
  have hpieces : List.Forall₂ (fun (quasi : Part node) raw => quasi.value.HoldsPiece raw) quasis
      (raw :: texts.map Prod.snd) := by
    rw [← List.forall₂_map_left_iff, hvalues]
    exact .cons hdepicts.first hraws
  have hexpressions : ∀ part ∈ ((some held).map quasi.within).filter
      (fun part : Part node => part.value.isTruthy),
      part.value = .array (parts.map Interpolation.expression) := by
    intro part hpart
    cases (Option.filter_eq_some_iff.1 hpart).1
    exact harray
  -- An empty list of expressions counts as no list.
  have hsome : parts.map Interpolation.expression ≠ [] → (((some held).map quasi.within).filter
      (fun part : Part node => part.value.isTruthy)).isSome = true := by
    intro hne
    have htruthy : (quasi.within held).value.isTruthy = true := by
      rw [Part.within, harray, Value.isTruthy, Bool.not_eq_true', List.isEmpty_eq_false_iff]
      exact hne
    rw [Option.map_some, Option.filter_some, if_pos htruthy]
    rfl
  have hprints : List.Forall₂ (fun item text => ∀ part : Part node, part.value = item →
      (node.printerIn style noIn).expression part Precedence.sequence level =
        .ok (.text (Prod.fst text))) (parts.map Interpolation.expression) texts :=
    hitems.imp fun item text hitem part hvalue => by
      subst hvalue
      exact hitem
  rw [hquasis, hheld]
  obtain ⟨text, htext, hchars⟩ := Printer.template_eq_ok hexpressions hsome hpieces hprints
  exact ⟨text, htext, _, hchars, Scans.template .operator hparts hpiece⟩

end

end Debundle
