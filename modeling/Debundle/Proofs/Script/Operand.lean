import Debundle.Proofs.Script.Depiction
import Debundle.Proofs.Script.Mirror
import Debundle.Proofs.Script.Scanner

/-!
# Texts of operands

An operand is an expression of which nothing matters but that its text falls into the same
lexemes wherever it is printed.  Parentheses, commas and points between operands are read as
what they are.
-/

namespace Debundle

open Lexer

namespace Value

/-- In every place that asks for a strength, a node is printed as the same lexemes. -/
def Spells (style : Style) (noIn : Bool) (strength : Nat) (node : Value) (lexemes : List Lexeme) :
    Prop :=
  ∀ level, ∃ text after, (node.print style noIn).expression strength level = .ok (.text text) ∧
    Scans .script .operand text.toList lexemes after closes

/-- A node binds less tightly than a call, and is printed as the same lexemes everywhere. -/
def SpellsLoosely (style : Style) (noIn : Bool) (node : Value) (lexemes : List Lexeme) : Prop :=
  ∀ level, ∃ text strength after,
    (node.printerIn style noIn).phrase? level = some (.ok (.ofText text strength)) ∧
      strength < Precedence.call ∧ Scans .script .operand text.toList lexemes after closes

variable {style : Style} {noIn : Bool} {node child : Value} {level : Int}

theorem expressionAt_printerIn {key text : String} {strength : Nat}
    (hlookup : node.lookup key = some child)
    (hprints : (child.print style noIn).expression strength level = .ok (.text text)) :
    (node.printerIn style noIn).expressionAt key strength level = .ok (.text text) := by
  obtain ⟨part, hpart, rfl⟩ := require_of_lookup hlookup
  simp only [Printer.expressionAt, hpart]
  exact hprints

/-- A phrase is put in parentheses where more strength is asked for. -/
theorem print_of_phrase {text : String} {own : Nat}
    (hphrase : (node.printerIn style noIn).phrase? level = some (.ok (.ofText text own)))
    (strength : Nat) :
    (node.print style noIn).expression strength level =
      .ok (.text (if own < strength then parenthesized text else text)) := by
  simp only [print_eq, Printer.rendition, Printer.asExpression, hphrase, Except.map,
    Phrase.inPlace, Phrase.ofText]
  split <;> rfl

end Value

theorem all_isBlank_pad {style : Style} (hindent : style.indent.toList.all isBlank = true)
    (level : Int) : (style.pad level).toList.all isBlank = true := by
  rw [Style.pad]
  induction level.toNat with
  | zero => rfl
  | succ count ih =>
    rw [List.replicate_succ, String.join_cons, String.toList_append, List.all_append, hindent, ih]
    rfl

theorem all_isBlank_separator {style : Style} {noIn : Bool} {node : Value}
    (hindent : style.indent.toList.all isBlank = true) (afterBlock : Bool) (level : Int) :
    ((node.printerIn style noIn).separator afterBlock level).toList.all isBlank = true := by
  cases afterBlock with
  | true =>
    rw [Printer.separator, if_pos rfl]
    decide
  | false =>
    rw [Printer.separator, if_neg Bool.false_ne_true, String.toList_append, List.all_append,
      Bool.and_eq_true]
    exact ⟨by decide, all_isBlank_pad hindent level⟩

theorem toList_parenthesized (text : String) :
    (parenthesized text).toList = '(' :: (text.toList ++ [')']) := by
  simp [parenthesized]

namespace Lexer.Scans

variable {layout : Layout} {goal after later : Goal} {lexemes : List Lexeme} {stops : Char → Bool}

theorem parenthesized {text : String}
    (hscans : Scans layout .operand text.toList lexemes after stops)
    (hstops : stops ')' = true) (goal : Goal) :
    Scans layout goal (parenthesized text).toList (grouped lexemes) .operator anyChar := by
  have hbracketed : Scans layout goal
      ((opening .paren).toList ++ text.toList ++ (closing .paren).toList) (grouped lexemes)
      .operator anyChar :=
    bracketed goal Bracket.noConfusion hscans
      fun char hchar => List.mem_singleton.1 hchar ▸ hstops
  rw [toList_parenthesized]
  exact hbracketed

theorem squared {inner : List Char} (hscans : Scans layout .operand inner lexemes after stops)
    (hstops : stops ']' = true) (goal : Goal) :
    Scans layout goal ('[' :: (inner ++ [']'])) (.mark "[" :: lexemes ++ [.mark "]"]) .operator
      anyChar :=
  @bracketed _ _ _ _ _ .square goal Bracket.noConfusion hscans
    fun _ hchar => List.mem_singleton.1 hchar ▸ hstops

/-- A member behind its owner. -/
theorem member {name : String} (hname : isWord name = true) :
    Scans layout .operator ('.' :: name.toList) [.mark ".", .word name] .operator isWordEnd := by
  have hmark : Scans layout .operator ['.'] [.mark "."] .property (markStops ".") :=
    mark (by decide) (by decide) (.inl (by decide)) rfl
  have hword : Scans layout .property name.toList [.word name] .operator isWordEnd :=
    word hname (.inl rfl)
  obtain ⟨char, rest, hchars, hnext⟩ := exists_markStops_of_isWord hname
  rw [hchars] at hword ⊢
  exact hmark.append_cons hword hnext

/-- Parentheses may stand behind every word. -/
theorem append_paren {chars more : List Char} {others : List Lexeme}
    (hfirst : Scans layout goal chars lexemes after isWordEnd)
    (hsecond : Scans layout after more others later anyChar) (hstart : more.head? = some '(') :
    Scans layout goal (chars ++ more) (lexemes ++ others) later isWordEnd := by
  obtain ⟨rest, rfl⟩ := List.head?_eq_some_iff.1 hstart
  exact hfirst.append_cons (hsecond.mono fun _ _ => rfl) (by decide)

/-- A list of operands is divided by commas. -/
theorem separated {texts : List String} {items : List (List Lexeme)} (ending : Goal → Prop)
    (hitems : List.Forall₂ (fun text item => ∃ after, ending after ∧
      Scans layout .operand (String.toList text) item after closes) texts items)
    (hsome : texts ≠ [] ∨ ending .operand) :
    ∃ after, ending after ∧
      Scans layout .operand (", ".intercalate texts).toList (separated items) after closes := by
  induction hitems with
  | nil =>
    exact ⟨.operand, hsome.resolve_left fun hne => hne rfl,
      (blank .operand rfl).mono fun _ _ => rfl⟩
  | @cons text item texts items hitem hrest ih =>
    cases hrest with
    | nil => exact hitem
    | @cons next _ texts _ _ _ =>
      obtain ⟨first, -, hfirst⟩ := hitem
      obtain ⟨after, hending, hafter⟩ := ih (.inl (List.cons_ne_nil _ _))
      have hcomma : Scans layout first (',' :: ' ' :: _) _ after closes :=
        ((@divider _ "," (by decide) first).append_any (space .operand)).append_any hafter
      refine ⟨after, hending, ?_⟩
      rw [String.intercalate_cons_cons, String.toList_append, String.toList_append,
        List.append_assoc]
      exact hfirst.append_cons hcomma rfl

end Lexer.Scans

/-- What the arguments of a node are printed as. -/
theorem exists_arguments {style : Style} {noIn : Bool} {node : Value}
    {items : List (List Lexeme × Value)}
    (hlookup : node.lookup "arguments" = some (.array (items.map Prod.snd)))
    (hspells : ∀ item ∈ items, item.2.Spells style noIn Precedence.assignment item.1)
    (level : Int) :
    ∃ text, (node.printerIn style noIn).arguments level = .ok text ∧
      text.toList.head? = some '(' ∧
      Scans .script .operator text.toList (grouped (separated (items.map Prod.fst))) .operator
        anyChar := by
  obtain ⟨parts, hparts, hvalues⟩ := Value.listAt_of_array hlookup
  obtain ⟨texts, hprints, hscans⟩ : ∃ texts : List String,
      List.Forall₂ (fun item text => (Value.print style noIn item).expression
        Precedence.assignment level = .ok (.text text)) (items.map Prod.snd) texts ∧
      List.Forall₂ (fun text item => ∃ after, True ∧
        Scans .script .operand (String.toList text) item after closes) texts
          (items.map Prod.fst) := by
    clear hlookup hvalues
    induction items with
    | nil => exact ⟨[], .nil, .nil⟩
    | cons item items ih =>
      rw [List.forall_mem_cons] at hspells
      obtain ⟨text, after, hprints, hscans⟩ := hspells.1 level
      obtain ⟨texts, hrest, hmore⟩ := ih hspells.2
      exact ⟨text :: texts, .cons hprints hrest, .cons ⟨after, trivial, hscans⟩ hmore⟩
  rw [← hvalues] at hprints
  obtain ⟨after, -, hseparated⟩ := Scans.separated (fun _ => True) hscans (.inr trivial)
  refine ⟨_, Printer.arguments_eq_ok hparts (List.forall₂_map_left_iff.1 hprints), ?_,
    hseparated.parenthesized rfl .operator⟩
  rw [toList_parenthesized]
  rfl

end Debundle
