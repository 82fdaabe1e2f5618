import Debundle.Proofs.Script.Legible
import Debundle.Proofs.Script.ReadBack
import Debundle.Proofs.Script.Surface

/-!
# The surface of an expression

Which signs stand on the surface of the text of an expression can be told from the tree: those of
its own operator and of its operands, unless parentheses or other brackets enclose them.

`Worded` says that a text is that of an expression with given signs on the surface, and
`Phrase.Shows` says it of a phrase, before it is known whether it needs parentheses.
`KeptBySurfaces` is the induction over all surfaces.
-/

namespace Debundle

open Attempt Lexer

/-! ### Texts of expressions -/

/-- No mark in front of the character takes it. -/
def isTermStart (char : Char) : Bool :=
  char != '=' && char != '*'

def startsTerm (text : String) : Bool :=
  text.toList.head?.any isTermStart

variable {text : String} {strength : Nat} {char : Char}

theorem startsTerm_append (hstarts : startsTerm text = true) (more : String) :
    startsTerm (text ++ more) = true := by
  rw [startsTerm, String.toList_append]
  rw [startsTerm] at hstarts
  cases hchars : text.toList with
  | nil =>
    rw [hchars] at hstarts
    cases hstarts
  | cons char rest =>
    rw [hchars] at hstarts
    exact hstarts

theorem startsTerm_of_word (hword : isWord text = true) : startsTerm text = true := by
  obtain ⟨char, rest, htext, hchar, -⟩ := isWord_iff.1 hword
  have hmarks : isWordChar '=' = false ∧ isWordChar '*' = false := by decide
  rw [startsTerm, htext, List.head?_cons, Option.any_some, isTermStart, Bool.and_eq_true,
    bne_iff_ne, bne_iff_ne]
  constructor
  · rintro rfl
    exact Bool.noConfusion (hchar.symm.trans hmarks.1)
  · rintro rfl
    exact Bool.noConfusion (hchar.symm.trans hmarks.2)

theorem startsTerm_of_literal (hliteral : isLiteral text = true) : startsTerm text = true := by
  have hconstants : ∀ word ∈ constantWords, startsTerm word = true := by decide
  rw [isLiteral, Bool.or_eq_true, List.contains_iff_mem, Option.any_eq_true] at hliteral
  rcases hliteral with hconstant | ⟨scan, hscanned, -⟩
  · exact hconstants text hconstant
  · rw [startsTerm]
    cases htext : text.toList with
    | nil =>
      rw [htext] at hscanned
      cases hscanned
    | cons char rest =>
      rw [htext] at hscanned
      rw [List.head?_cons, Option.any_some, isTermStart, Bool.and_eq_true, bne_iff_ne, bne_iff_ne]
      constructor <;> (rintro rfl; cases hscanned)

/-- What may follow an expression of the given strength.  A point asks for as much strength as a
call does, and behind nothing but digits it would belong to the number. -/
def endsAt (strength : Nat) (text : String) (char : Char) : Bool :=
  ends char || (decide (Precedence.call ≤ strength) && endsBefore text char)

theorem endsAt_of_ends (hends : ends char = true) : endsAt strength text char = true :=
  Bool.or_eq_true_iff.2 (.inl hends)

theorem endsBefore_of_endsAt (hends : endsAt strength text char = true) :
    endsBefore text char = true := by
  rw [endsAt, Bool.or_eq_true, Bool.and_eq_true] at hends
  exact hends.elim endsBefore_of_ends And.right

/-- The text of an expression of the given strength, with the signs on its surface. -/
structure Worded (strength : Nat) (signs : List Sign) (text : String) : Prop where
  starts : startsTerm text = true
  piece : Piece .operand text signs .operator (endsAt strength text)

namespace Worded

variable {strength weaker : Nat} {signs : List Sign} {text : String}

theorem of_endsBefore (hstarts : startsTerm text = true)
    (hpiece : Piece .operand text signs .operator (endsBefore text)) :
    Worded strength signs text :=
  ⟨hstarts, hpiece.mono fun _ => endsBefore_of_endsAt⟩

/-- Not only the end of an expression may follow. -/
theorem of_wordEnd (hstarts : startsTerm text = true)
    (hpiece : Piece .operand text signs .operator isWordEnd) : Worded strength signs text :=
  .of_endsBefore hstarts (hpiece.mono fun _ => isWordEnd_of_endsBefore)

theorem of_any (hstarts : startsTerm text = true)
    (hpiece : Piece .operand text signs .operator anyChar) : Worded strength signs text :=
  ⟨hstarts, hpiece.narrow⟩

theorem of_loose (hstarts : startsTerm text = true) (hstrength : strength < Precedence.call)
    (hpiece : Piece .operand text signs .operator ends) : Worded strength signs text := by
  refine ⟨hstarts, hpiece.mono fun char hends => ?_⟩
  rw [endsAt, decide_eq_false (Nat.not_le_of_lt hstrength), Bool.false_and, Bool.or_false] at hends
  exact hends

theorem loose (hworded : Worded strength signs text) :
    Piece .operand text signs .operator ends :=
  hworded.piece.mono fun _ => endsAt_of_ends

theorem item (hworded : Worded strength signs text) : IsItem (· = .operator) text signs :=
  ⟨.operator, rfl, hworded.loose⟩

theorem weaken (hworded : Worded strength signs text) (hweaker : weaker ≤ strength) :
    Worded weaker signs text := by
  refine ⟨hworded.starts, hworded.piece.mono fun char hends => ?_⟩
  rw [endsAt, Bool.or_eq_true, Bool.and_eq_true, decide_eq_true_eq] at hends ⊢
  exact hends.imp_right (And.imp_left fun hcall => Nat.le_trans hcall hweaker)

theorem startsOperand (hworded : Worded strength signs text) : startsOperand text = true := by
  have hstarts := hworded.starts
  rw [startsTerm, Option.any_eq_true] at hstarts
  obtain ⟨char, hchar, hterm⟩ := hstarts
  rw [Debundle.startsOperand, hchar]
  exact (Bool.and_eq_true_iff.1 hterm).1

/-- Nothing shows through parentheses. -/
theorem parenthesized (hworded : Worded strength signs text) (other : Nat) :
    Worded other [] (parenthesized text) := by
  refine .of_any ?_ (hworded.loose.parenthesized .operand rfl (by decide))
  rw [startsTerm, toList_parenthesized]
  rfl

/-- What may be called may be followed by a point, unless it is a number. -/
theorem linked (hworded : Worded strength signs text) (hcall : Precedence.call ≤ strength) :
    Piece .operand text signs .operator (endsBefore text) := by
  refine hworded.piece.mono fun char hends => ?_
  rw [endsAt, Bool.or_eq_true, Bool.and_eq_true, decide_eq_true_eq]
  exact .inr ⟨hcall, hends⟩

end Worded

/-- The content that an expression is printed as is a text. -/
def IsWorded (strength : Nat) (signs : List Sign) (content : Value) : Prop :=
  ∃ text, content = .text text ∧ Worded strength signs text

/-- Where a point may follow, only a number is written as nothing but digits. -/
def IsSolid (isNumeral : Bool) (strength : Nat) (content : Value) : Prop :=
  isNumeral = false → Precedence.call ≤ strength →
    content.display.toList.all Char.isDigit = false

/-! ### Surfaces -/

/-- The signs on the surface of an expression, and its binding strength. -/
structure Surface where
  signs : List Sign
  strength : Nat

namespace Surface

/-- The surface of an expression on which there are no signs. -/
def bare : Surface where
  signs := []
  strength := Precedence.primary

/-- The signs that show in a place that asks for `strength`. -/
def inPlace (surface : Surface) (strength : Nat) : List Sign :=
  if surface.strength < strength then [] else surface.signs

end Surface

/-- The text of a phrase has the surface. -/
structure Phrase.Shows (surface : Surface) (isNumeral : Bool) (phrase : Phrase) : Prop where
  worded : IsWorded phrase.strength surface.signs phrase.content
  placed : surface.signs = [] ∨ surface.strength = phrase.strength
  solid : IsSolid isNumeral phrase.strength phrase.content

namespace Phrase

theorem Shows.of_nil {surface : Surface} {isNumeral : Bool} {phrase : Phrase}
    (hshows : phrase.Shows surface isNumeral) (hnil : surface.signs = []) :
    phrase.Shows .bare isNumeral := by
  have hworded := hshows.worded
  rw [hnil] at hworded
  exact ⟨hworded, .inl rfl, hshows.solid⟩

/-- Parentheses hide the surface of a phrase in the place where they stand. -/
theorem Shows.inPlace {surface : Surface} {isNumeral : Bool} {phrase : Phrase}
    (hshows : phrase.Shows surface isNumeral) (strength : Nat) :
    IsWorded strength (surface.inPlace strength) (phrase.inPlace strength) ∧
      IsSolid isNumeral strength (phrase.inPlace strength) := by
  obtain ⟨⟨text, htext, hworded⟩, hplaced, hsolid⟩ := hshows
  have hsigns : surface.inPlace strength =
      if phrase.strength < strength then [] else surface.signs := by
    rw [Surface.inPlace]
    rcases hplaced with hbare | hsame
    · rw [hbare, ite_self, ite_self]
    · rw [hsame]
  rw [Phrase.inPlace, hsigns]
  rw [htext] at hsolid ⊢
  by_cases hweak : phrase.strength < strength
  · rw [if_pos hweak, if_pos hweak]
    refine ⟨⟨_, rfl, hworded.parenthesized strength⟩, fun _ _ => ?_⟩
    rw [Value.display_text, toList_parenthesized]
    rfl
  · have hstrong := Nat.le_of_not_lt hweak
    rw [if_neg hweak, if_neg hweak]
    exact ⟨⟨text, rfl, hworded.weaken hstrong⟩,
      fun hnumeral hcall => hsolid hnumeral (Nat.le_trans hcall hstrong)⟩

variable {text : String} {strength : Nat} {surface : Surface} {isNumeral : Bool}

/-- A phrase that cannot be called. -/
theorem shows_loose (hworded : Worded strength surface.signs text)
    (hplaced : surface.signs = [] ∨ surface.strength = strength)
    (hloose : strength < Precedence.call) : (ofText text strength).Shows surface isNumeral :=
  ⟨⟨text, rfl, hworded⟩, hplaced, fun _ hcall => absurd hcall (Nat.not_le_of_lt hloose)⟩

/-- A phrase with nothing on the surface, and not only digits. -/
theorem shows_bare (hworded : Worded strength [] text)
    (hsolid : text.toList.all Char.isDigit = false) :
    (ofText text strength).Shows .bare isNumeral :=
  ⟨⟨text, rfl, hworded⟩, .inl rfl, fun _ _ => hsolid⟩

end Phrase

namespace Value

open Kind

section

variable (style : Style) (noIn : Bool) (level : Int) (value : Value) (inner : Part value → Surface)

/-- The signs that show in the place of a field. -/
def signsBy (key : String) (strength : Nat) : List Sign :=
  ((value.part? key).map fun part => (inner part).inPlace strength).getD []

/-- The surface of an operation.  One with `in` is in parentheses where `in` may not stand. -/
def operationSurface (word : String) : Surface :=
  let strength := Precedence.ofOperator word
  if word == "in" && noIn then .bare
  else
    { signs := value.signsBy inner "left" (if word == "**" then Precedence.update else strength)
        ++ (if word == "in" then [.within] else [])
        ++ value.signsBy inner "right" (if word == "**" then strength else strength + 1)
      strength := strength }

/-- What an arrow points to is in brackets if it is a block, or starts with a brace. -/
def arrowSigns : List Sign :=
  ((value.part? "body").map fun body =>
    let content := ((body.value.print style noIn).expression Precedence.assignment level).toOption
    if body.value.kind = .blockStatement ∨
        (content.any fun content => startsWith content.display "\x7b") = true then []
    else (inner body).inPlace Precedence.assignment).getD []

/-- The surface of an expression, from those of its parts. -/
def surfaceBy : Surface :=
  match value.kind with
  | .sequenceExpression =>
    let items := ((value.require "expressions").bind Part.elements).toOption.getD []
    { signs := (items.map fun part => (inner part).inPlace Precedence.assignment).flatten
      strength := Precedence.sequence }
  | .assignmentExpression | .assignmentPattern =>
    { signs := value.signsBy inner "right" Precedence.assignment
      strength := Precedence.assignment }
  | .conditionalExpression =>
    { signs := value.signsBy inner "test" Precedence.logicalOr
        ++ [.asks] ++ value.signsBy inner "consequent" Precedence.assignment
        ++ [.answers] ++ value.signsBy inner "alternate" Precedence.assignment
      strength := Precedence.conditional }
  | .arrowFunctionExpression =>
    { signs := value.arrowSigns style noIn level inner
      strength := Precedence.arrowFunction }
  | .spreadElement | .restElement =>
    { signs := value.signsBy inner "argument" Precedence.assignment
      strength := Precedence.assignment }
  | .yieldExpression =>
    { signs := value.signsBy inner "argument" Precedence.yield
      strength := Precedence.yield }
  | .binaryExpression | .logicalExpression =>
    ((value.textAt? "operator").map (value.operationSurface noIn inner)).getD .bare
  | _ => .bare

end

/-- The surface of an expression where it is printed, inside the first clause of a `for` head
or not. -/
def surface (style : Style) (noIn : Bool) (level : Int) (value : Value) : Surface :=
  value.surfaceBy style noIn level fun part => part.value.surface style noIn level
termination_by value.size
decreasing_by exact part.smaller

/-- The signs that show in the place of a field. -/
def signsAt (style : Style) (noIn : Bool) (level : Int) (value : Value) (key : String)
    (strength : Nat) : List Sign :=
  value.signsBy (fun part => part.value.surface style noIn level) key strength

variable {style : Style} {noIn : Bool} {level : Int} {value : Value} {key : String}

theorem surface_eq (style : Style) (noIn : Bool) (level : Int) (value : Value) :
    value.surface style noIn level =
      value.surfaceBy style noIn level fun part => part.value.surface style noIn level := by
  rw [surface]

theorem surface_null (style : Style) (noIn : Bool) (level : Int) :
    Value.null.surface style noIn level = .bare := by
  rw [surface]
  rfl

theorem signsAt_of_part {part : Part value} (hpart : value.part? key = some part)
    (strength : Nat) : value.signsAt style noIn level key strength =
      (part.value.surface style noIn level).inPlace strength := by
  rw [signsAt, signsBy, hpart]
  rfl

theorem signsAt_of_part?_eq_none (hnone : value.part? key = none) (strength : Nat) :
    value.signsAt style noIn level key strength = [] := by
  rw [signsAt, signsBy, hnone]
  rfl

/-- A field that is not given shows nothing. -/
theorem signsAt_of_given?_eq_none (hnone : value.given? key = none) (strength : Nat) :
    value.signsAt style noIn level key strength = [] := by
  cases hpart : value.part? key with
  | none => exact signsAt_of_part?_eq_none hpart strength
  | some part =>
    have hnull : part.value = .null := by
      rw [given?, hpart, Option.filter_some, ite_eq_right_iff] at hnone
      cases hvalue : part.value with
      | null => rfl
      | _ =>
        rw [hvalue] at hnone
        cases hnone rfl
    rw [signsAt_of_part hpart, hnull, surface_null, Surface.inPlace, Surface.bare, ite_self]

theorem ofOperator_lt_unary (word : String) : Precedence.ofOperator word < Precedence.unary := by
  rw [Precedence.ofOperator.eq_def]
  split <;> decide

/-- Only operations that bind less tightly than unary ones have something on the surface. -/
theorem surface_strength_lt (style : Style) (noIn : Bool) (level : Int) (value : Value) :
    (value.surface style noIn level).signs = [] ∨
      (value.surface style noIn level).strength < Precedence.unary := by
  have hoperation : ∀ inner : Part value → Surface,
      (((value.textAt? "operator").map (value.operationSurface noIn inner)).getD .bare).signs = [] ∨
        (((value.textAt? "operator").map (value.operationSurface noIn inner)).getD .bare).strength <
          Precedence.unary := by
    intro inner
    cases value.textAt? "operator" with
    | none => exact .inl rfl
    | some word =>
      rw [Option.map_some, Option.getD_some, operationSurface]
      cases word == "in" && noIn with
      | true => exact .inl rfl
      | false => exact .inr (ofOperator_lt_unary word)
  rw [surface_eq, surfaceBy]
  cases value.kind with
  | binaryExpression | logicalExpression => exact hoperation _
  | sequenceExpression | assignmentExpression | assignmentPattern | conditionalExpression
  | arrowFunctionExpression | spreadElement | restElement | yieldExpression =>
    exact .inr (of_decide_eq_true rfl)
  | _ => exact .inl rfl

theorem inPlace_eq_nil {strength : Nat} (hstrength : Precedence.unary ≤ strength) :
    (value.surface style noIn level).inPlace strength = [] := by
  rw [Surface.inPlace]
  rcases value.surface_strength_lt style noIn level with hnil | hweak
  · rw [hnil, ite_self]
  · rw [if_pos (Nat.lt_of_lt_of_le hweak hstrength)]

theorem signsAt_eq_nil {strength : Nat} (hstrength : Precedence.unary ≤ strength) :
    value.signsAt style noIn level key strength = [] := by
  cases hpart : value.part? key with
  | none => exact signsAt_of_part?_eq_none hpart strength
  | some part => rw [signsAt_of_part hpart, inPlace_eq_nil hstrength]

/-- A property of signs that is kept by all ways to put the signs of an expression together. -/
structure KeptBySurfaces (noIn : Bool) (holds : List Sign → Prop) : Prop where
  nil : holds []
  append : ∀ front back, holds front → holds back → holds (front ++ back)
  choice : ∀ signs, holds signs → holds (.asks :: signs ++ [.answers])
  within : noIn = false → holds [.within]

theorem KeptBySurfaces.flatten {α : Type} {holds : List Sign → Prop}
    (hkept : KeptBySurfaces noIn holds) {items : List α} {signsOf : α → List Sign}
    (hitems : ∀ item ∈ items, holds (signsOf item)) : holds (items.map signsOf).flatten := by
  induction items with
  | nil => exact hkept.nil
  | cons item items ih =>
    rw [List.forall_mem_cons] at hitems
    exact hkept.append _ _ hitems.1 (ih hitems.2)

theorem KeptBySurfaces.surface {holds : List Sign → Prop} (hkept : KeptBySurfaces noIn holds)
    (style : Style) (level : Int) (value : Value) :
    holds (value.surface style noIn level).signs := by
  induction hsize : value.size using Nat.strongRecOn generalizing value with
  | ind size ih =>
    have hplace : ∀ (part : Part value) (strength : Nat),
        holds ((part.value.surface style noIn level).inPlace strength) := by
      intro part strength
      rw [Surface.inPlace]
      split
      · exact hkept.nil
      · exact ih part.value.size (hsize ▸ part.smaller) part.value rfl
    have hfield : ∀ key strength, holds (value.signsBy
        (fun part => part.value.surface style noIn level) key strength) := by
      intro key strength
      rw [signsBy]
      cases value.part? key with
      | none => exact hkept.nil
      | some part => exact hplace part strength
    rw [surface_eq, surfaceBy]
    cases value.kind with
    | sequenceExpression => exact hkept.flatten fun item _ => hplace item _
    | assignmentExpression | assignmentPattern | spreadElement | restElement
    | yieldExpression => exact hfield _ _
    | conditionalExpression =>
      have hall := hkept.append _ _ (hkept.append _ _ (hfield "test" Precedence.logicalOr)
        (hkept.choice _ (hfield "consequent" Precedence.assignment)))
        (hfield "alternate" Precedence.assignment)
      simpa using hall
    | arrowFunctionExpression =>
      simp only [arrowSigns]
      cases value.part? "body" with
      | none => exact hkept.nil
      | some body =>
        rw [Option.map_some, Option.getD_some]
        split
        · exact hkept.nil
        · exact hplace body _
    | binaryExpression | logicalExpression =>
      simp only
      cases value.textAt? "operator" with
      | none => exact hkept.nil
      | some word =>
        rw [Option.map_some, Option.getD_some, operationSurface]
        by_cases hin : word == "in"
        · cases noIn with
          | true =>
            rw [hin]
            exact hkept.nil
          | false =>
            rw [hin]
            exact hkept.append _ _ (hkept.append _ _ (hfield _ _) (hkept.within rfl)) (hfield _ _)
        · rw [Bool.eq_false_iff.2 hin]
          exact hkept.append _ _ (hkept.append _ _ (hfield _ _) hkept.nil) (hfield _ _)
    | _ => exact hkept.nil

theorem KeptBySurfaces.signsAt {holds : List Sign → Prop} (hkept : KeptBySurfaces noIn holds)
    (style : Style) (level : Int) (value : Value) (key : String) (strength : Nat) :
    holds (value.signsAt style noIn level key strength) := by
  cases hpart : value.part? key with
  | none =>
    rw [Value.signsAt, signsBy, hpart]
    exact hkept.nil
  | some part =>
    rw [signsAt_of_part hpart, Surface.inPlace]
    split
    · exact hkept.nil
    · exact hkept.surface style level part.value

end Value

end Debundle
