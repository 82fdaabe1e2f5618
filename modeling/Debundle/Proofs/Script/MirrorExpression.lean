import Debundle.Proofs.Script.Mirror

/-!
# Expressions of a renamed tree

Every rule for an expression succeeds on a renamed node where it succeeds on the node.  The
rule for a property takes different ways before and after a renaming, since a shorthand
stands for its value only while the two have the same name.
-/

namespace Debundle

open Attempt Renaming

/-- The kinds of expressions that are printed as a sum, which need not be a text. -/
def sumKinds : List Kind :=
  [.updateExpression, .callExpression, .taggedTemplateExpression]

/-- What an expression comes out as that binds with `strength`: a text, or the name of an
identifier, or a sum, which binds no stronger than a call. -/
def Value.ComesOut (node : Value) (strength : Nat) (content : Value) : Prop :=
  (∃ text, content = .text text) ∨
    (node.kind = .identifier ∧ node.lookup "name" = some content) ∨
    (node.kind ∈ sumKinds ∧ strength ≤ Precedence.call)

namespace Printer

variable {node : Value} {printer : Printer node} {level : Int}

theorem phrase?_gives {step : Except Fault Phrase} (hstep : printer.phrase? level = some step) :
    Gives (fun phrase => node.ComesOut phrase.strength phrase.content) step := by
  have htext : ∀ {text strength}, node.ComesOut strength (Phrase.ofText text strength).content :=
    fun {text _} => .inl ⟨text, rfl⟩
  have hsum : ∀ {strength content}, node.kind ∈ sumKinds → strength ≤ Precedence.call →
      node.ComesOut strength content :=
    fun hkind hstrength => .inr (.inr ⟨hkind, hstrength⟩)
  rw [phrase?] at hstep
  cases hkind : node.kind <;> rw [hkind] at hstep hsum <;> cases hstep
  case identifier =>
    intro phrase hphrase
    obtain ⟨name, hname, hvalue⟩ := bind_eq_ok_iff.1 hphrase
    cases hvalue
    exact .inr (.inl ⟨hkind, Value.lookup_of_name hname⟩)
  case updateExpression =>
    exact .bind fun _ => .bind fun _ => .ite
      (.bind fun _ => .pure (hsum (by decide) (show Precedence.unary ≤ _ by decide)))
      (.bind fun _ => .pure (hsum (by decide) (show Precedence.update ≤ _ by decide)))
  case callExpression =>
    exact .bind fun _ => .bind fun _ => .bind fun _ => .pure (hsum (by decide) Nat.le.refl)
  case taggedTemplateExpression =>
    exact .bind fun _ => .bind fun _ => .bind fun _ => .bind fun _ => .bind fun _ =>
      .pure (hsum (by decide) Nat.le.refl)
  case thisExpression | super => exact .pure htext
  case literal =>
    rw [literal]
    split
    · exact .pure htext
    · exact .bind fun _ => .pure htext
  case arrayExpression | arrayPattern =>
    exact .bind fun _ => .bind fun _ => .bind fun _ => .pure htext
  case objectExpression => exact .bind fun _ => .ite (.pure htext) (.bind fun _ => .pure htext)
  case objectPattern => exact .bind fun _ => .bind fun _ => .bind fun _ => .pure htext
  case functionExpression | classExpression => exact .map fun _ => htext
  case arrowFunctionExpression =>
    exact .bind fun _ => .bind fun _ => .bind fun _ => .bind fun _ => .ite
      (.bind fun _ => .pure htext) (.bind fun _ => .bind fun _ => .pure htext)
  case unaryExpression =>
    refine .bind fun _ => .bind fun _ => ?_
    split
    · refine .ite (.pure htext) (.bind fun _ => ?_)
      split
      · exact .error
      · exact .pure htext
    · exact .error
  case binaryExpression | logicalExpression =>
    exact .bind fun _ => .bind fun _ => .bind fun _ => .bind fun _ =>
      .ite (.pure htext) (.pure htext)
  case assignmentExpression | conditionalExpression =>
    exact .bind fun _ => .bind fun _ => .bind fun _ => .pure htext
  case assignmentPattern => exact .bind fun _ => .bind fun _ => .pure htext
  case metaProperty =>
    exact .bind fun _ => .bind fun _ => .bind fun _ => .bind fun _ => .pure htext
  case newExpression => exact .bind fun _ => .bind fun _ => .bind fun _ => .pure htext
  case memberExpression =>
    exact .bind fun _ => .ite (.bind fun _ => .pure htext)
      (.bind fun _ => .bind fun _ => .pure htext)
  case sequenceExpression =>
    exact .bind fun _ => .bind fun _ => .bind fun _ => .bind fun _ => .pure htext
  case templateLiteral => exact .bind fun _ => .pure htext
  case spreadElement | restElement | awaitExpression =>
    exact .bind fun _ => .bind fun _ => .pure htext
  case yieldExpression =>
    rw [yieldText]
    cases node.given? "argument" with
    | none => exact .pure htext
    | some argument => exact .bind fun _ => .bind fun _ => .pure htext

end Printer

namespace Value

variable {style : Style} {noIn : Bool} {value content : Value} {strength : Nat} {level : Int}

theorem comesOut_of_expression
    (hcontent : (value.print style noIn).expression strength level = .ok content) :
    value.ComesOut strength content := by
  rw [print_eq] at hcontent
  replace hcontent : (value.printerIn style noIn).asExpression strength level = .ok content :=
    hcontent
  rw [Printer.asExpression] at hcontent
  split at hcontent
  · next step hstep =>
      obtain ⟨phrase, hphrase, rfl⟩ := map_eq_ok_iff.1 hcontent
      rw [Phrase.inPlace]
      split
      · exact .inl ⟨_, rfl⟩
      · rcases Printer.phrase?_gives hstep phrase hphrase with
          htext | hname | ⟨hsum, hstrength⟩
        · exact .inl htext
        · exact .inr (.inl hname)
        · exact .inr (.inr ⟨hsum, by omega⟩)
  · obtain ⟨text, -, rfl⟩ := map_eq_ok_iff.1 hcontent
    exact .inl ⟨text, rfl⟩

/-- An identifier comes out as its name wherever it stands. -/
theorem expression_of_name {name : Value} (hkind : value.kind = .identifier)
    (hname : value.lookup "name" = some name) (hstrength : strength ≤ Precedence.primary) :
    (value.print style noIn).expression strength level = .ok name := by
  rw [print_eq]
  show (value.printerIn style noIn).asExpression strength level = _
  rw [Printer.asExpression, Printer.phrase?, hkind]
  show (Printer.identifier _).map (Phrase.inPlace · strength) = _
  rw [Printer.identifier, name_eq_ok hname]
  show Except.ok (Phrase.inPlace ⟨name, Precedence.primary⟩ strength) = _
  rw [Phrase.inPlace, if_neg (Nat.not_lt.2 hstrength)]

end Value

/-- A step that results in a text, whatever the other step does. -/
theorem Follows.of_text {first second : Except Fault Value}
    (hsecond : ∃ text, second = .ok (.text text)) : Follows Value.KeepsText first second := by
  obtain ⟨text, htext⟩ := hsecond
  exact fun _ _ => ⟨_, htext, fun _ _ => ⟨text, rfl⟩⟩

namespace Mirroring

open Value

variable {registry : Registry} {node other : Value} {first : Printer node} {second : Printer other}
  {part : Part node} {new : Part other} {key otherKey : Value} {part? : Option (Part node)}
  {new? : Option (Part other)} {level : Int} (hmirror : Mirroring registry first second)

include hmirror

theorem array_follows : Follows Phrase.Alike (first.array level) (second.array level) := by
  refine (hmirror.revised.listAt_follows rfl).bind fun _ _ hparts => ?_
  refine (Follows.mapM hparts fun _ _ helement => ?_).bind fun _ _ hpieces =>
    (commaSeparated_follows hpieces).printed
  refine .ite ?_ (fun _ => .pure (.same _)) fun _ => hmirror.expression_follows helement
  rw [helement.isNull_eq]

theorem keyedFunction_follows {keyword otherKeyword : String}
    (hpart : Option.Rel (Part.Revised registry) part? new?) :
    Follows KeepsText (first.keyedFunction keyword key part? level)
      (second.keyedFunction otherKeyword otherKey new? level) :=
  (hmirror.functionTailOf_follows hpart).bind fun _ _ _ =>
    .pure fun _ _ => ⟨_, rfl⟩

theorem keyedValue_follows (hpart : Option.Rel (Part.Revised registry) part? new?) :
    Follows KeepsText (first.keyedValue key part? level) (second.keyedValue otherKey new? level) :=
  (hmirror.expressionOf_follows hpart).bind fun _ _ _ =>
    .pure fun _ _ => ⟨_, rfl⟩

theorem comesOut {strength : Nat} {content : Value}
    (hcontent : second.expression new strength level = .ok content) :
    new.value.ComesOut strength content := by
  rw [Printer.expression, hmirror.inner_eq] at hcontent
  exact comesOut_of_expression hcontent

/-- The key of a property is printed as a text if it has a text for a name. -/
theorem propertyKey_text {name : String} (hcomputed : new.value.flag "computed" = false)
    (hname : ((new.value.lookup "key").bind fun held => held.lookup "name") = some (.text name))
    (hkey : second.propertyKey new level = .ok key) : ∃ text, key = .text text := by
  obtain ⟨held, hheld, hheldName⟩ := Option.bind_eq_some_iff.1 hname
  obtain ⟨keyPart, hpart, rfl⟩ := exists_part hheld
  rw [Printer.propertyKey, hcomputed, hpart] at hkey
  rcases hmirror.comesOut hkey with htext | ⟨-, hlookup⟩ | ⟨-, hstrength⟩
  · exact htext
  · cases hlookup.symm.trans hheldName
    exact ⟨name, rfl⟩
  · exact absurd hstrength (by decide)

omit hmirror in
/-- The key of a shorthand for a name is not renamed with the name. -/
theorem shorthand_key_eq (hpart : part.Revised registry new)
    (hkind : part.value.kind = .property) (hshorthand : part.value.flag "shorthand" = true)
    (hcomputed : part.value.flag "computed" = false) {held : Value}
    (hheld : part.value.lookup "value" = some held) (hidentifier : held.kind = .identifier) :
    new.value.lookup "key" = part.value.lookup "key" := by
  have hskips : part.value.skips "key" = true := by
    simp [skips, hkind, hshorthand, hcomputed, hheld, hidentifier]
  rcases hpart.lookup_cases "key" with
    ⟨hnone, hnew⟩ | ⟨old, key, hold, hnew, hfield⟩
  · rw [hnone, hnew]
  · rcases hfield with (⟨-, hkept⟩ | ⟨-, hkey, -⟩) | ⟨-, hkey, -⟩
    · rw [hold, hnew, hkept hskips]
    · exact absurd hkey (by decide)
    · exact absurd hkey (by decide)

/-- The value of a shorthand is a name.  Where the renaming gives it another, it is printed
behind its key or as its key, and both are texts. -/
theorem shorthand_name_follows {held : Part node} {new : Part other} {keyName : Option Value}
    (halike : Alike key otherKey)
    (hkey : ∀ name, keyName = some (.text name) → ∃ text, otherKey = .text text)
    (hheld : held.Revised registry new) (hkind : held.value.kind = .identifier) :
    Follows KeepsText (if sameName (held.value.lookup "name") keyName = true then pure key
        else first.keyedValue key (some held) level)
      (if sameName (new.value.lookup "name") keyName = true then pure otherKey
        else second.keyedValue otherKey (some new) level) := by
  rcases hheld.eq_or_name hkind with hsame | ⟨name, hname⟩
  · rw [hsame]
    exact .ite Iff.rfl (fun _ => .pure halike.keepsText) fun _ =>
      hmirror.keyedValue_follows (.some hheld)
  · rw [hname]
    apply Follows.of_text
    split
    · next hsame =>
        rw [sameName, Option.getD_some, text_beq_iff] at hsame
        obtain ⟨text, rfl⟩ := hkey name (by cases keyName <;> cases hsame; rfl)
        exact ⟨text, rfl⟩
    · have hprinted : second.expression new Precedence.assignment level = .ok (.text name) := by
        rw [Printer.expression, hmirror.inner_eq]
        exact expression_of_name (hheld.kind_eq.trans hkind) hname (by decide)
      rw [Printer.keyedValue, Printer.expressionOf, hprinted]
      exact ⟨_, rfl⟩

/-- The value of a shorthand is a name with a default, and is printed with it in any case. -/
theorem shorthand_default_follows {held : Part node} {new : Part other}
    (hheld : held.Revised registry new) (hkind : held.value.kind = .assignmentPattern)
    (bare otherBare : Bool) :
    Follows KeepsText (if bare = true then first.expression held Precedence.assignment level
        else first.keyedValue key (some held) level) (if otherBare = true then
          second.expression new Precedence.assignment level
        else second.keyedValue otherKey (some new) level) := by
  have hprinted : Follows (fun _ content => ∃ text, content = .text text)
      (first.expression held Precedence.assignment level)
      (second.expression new Precedence.assignment level) := by
    refine (hmirror.expression_follows hheld).and_ok.mono fun _ content hcontent => ?_
    have hnew := hheld.kind_eq.trans hkind
    rcases hmirror.comesOut hcontent.2 with htext | ⟨hother, -⟩ | ⟨hother, -⟩
    · exact htext
    · cases hnew.symm.trans hother
    · rw [hnew] at hother
      exact absurd hother (by decide)
  cases bare <;> cases otherBare
  · exact hmirror.keyedValue_follows (.some hheld)
  · intro content hcontent
    obtain ⟨value, hvalue, -⟩ := bind_eq_ok_iff.1 hcontent
    obtain ⟨other, hother, htext⟩ := hprinted value hvalue
    exact ⟨other, hother, fun _ _ => htext⟩
  · intro content hcontent
    obtain ⟨other, hother, htext⟩ := hprinted content hcontent
    exact ⟨_, bind_eq_ok_iff.2 ⟨other, hother, rfl⟩, fun _ _ => ⟨_, rfl⟩⟩
  · exact hprinted.mono fun _ _ htext _ _ => htext

theorem shorthand_follows (halike : Alike key otherKey)
    (hkey : second.propertyKey new level = .ok otherKey) (hpart : part.Revised registry new)
    (hkind : part.value.kind = .property) (hshorthand : part.value.flag "shorthand" = true)
    (hcomputed : part.value.flag "computed" = false) :
    Follows KeepsText (first.shorthand part key ((part.value.part? "value").map part.within) level)
      (second.shorthand new otherKey ((new.value.part? "value").map new.within) level) := by
  rcases hpart.part?_plain "value" rfl with
    ⟨hnone, hnew⟩ | ⟨held, newHeld, hold, hnew, hheld⟩
  · rw [hnone, hnew]
    exact .error
  · have hvalue : (part.within held).Revised registry (new.within newHeld) := hheld
    have hsame := hvalue.kind_eq
    rw [hold, hnew, Option.map_some, Option.map_some]
    refine .ite (by rw [hsame]) (fun hform => ?_) fun _ =>
      .ite (by rw [hsame]) (fun hform => ?_) fun _ => hmirror.keyedValue_follows (.some hvalue)
    · have hkept := shorthand_key_eq hpart hkind hshorthand hcomputed (lookup_of_part? hold) hform
      rw [hkept]
      refine hmirror.shorthand_name_follows halike (fun name hname => ?_) hvalue hform
      rw [← hkept] at hname
      exact hmirror.propertyKey_text ((hpart.flag_eq _ rfl).trans hcomputed) hname hkey
    · refine (hvalue.require_follows rfl).bind fun _ _ htarget => ?_
      refine htarget.asRecord_follows.bind fun _ _ _ => ?_
      exact hmirror.shorthand_default_follows hvalue hform _ _

theorem propertyMethod_follows (hpart : Option.Rel (Part.Revised registry) part? new?) :
    Follows KeepsText (first.propertyMethod key part? level)
      (second.propertyMethod otherKey new? level) := by
  cases hpart with
  | none => exact .error
  | some hmethod =>
    refine (hmethod.flag_follows rfl).bind fun _ _ _ => ?_
    refine (hmethod.flag_follows rfl).bind fun _ _ _ => ?_
    exact hmirror.keyedFunction_follows (.some hmethod)

theorem dataProperty_follows (halike : Alike key otherKey)
    (hkey : second.propertyKey new level = .ok otherKey) (hpart : part.Revised registry new)
    (hkind : part.value.kind = .property) :
    Follows KeepsText
      (first.dataProperty part key ((part.value.part? "value").map part.within) level)
      (second.dataProperty new otherKey ((new.value.part? "value").map new.within) level) := by
  have hvalue := hpart.part?_rel "value" rfl
  rw [Printer.dataProperty, Printer.dataProperty, hpart.flag_eq _ rfl, hpart.flag_eq _ rfl,
    hpart.flag_eq _ rfl]
  refine .ite Iff.rfl (fun _ => hmirror.propertyMethod_follows hvalue) fun _ => ?_
  refine .ite Iff.rfl (fun hshorthand => ?_) fun _ => hmirror.keyedValue_follows hvalue
  rw [Bool.and_eq_true, Bool.not_eq_true'] at hshorthand
  exact hmirror.shorthand_follows halike hkey hpart hkind hshorthand.1 hshorthand.2

theorem property_follows (hpart : part.Revised registry new) (hkind : part.value.kind = .property) :
    Follows KeepsText (first.property part level) (second.property new level) := by
  have hvalue := hpart.part?_rel "value" rfl
  refine (hmirror.propertyKey_follows hpart).and_ok.bind fun key otherKey hkey => ?_
  have hdata := hmirror.dataProperty_follows hkey.1 hkey.2 hpart hkind
  rw [hpart.accessor?_eq]
  cases part.value.accessor? with
  | none => exact hdata
  | some keyword => exact hmirror.keyedFunction_follows hvalue

/-- An item may become a text, but it does not cease to be one. -/
theorem objectItem_follows (hpart : part.Revised registry new) :
    Follows KeepsText (first.objectItem part level) (second.objectItem new level) := by
  refine .ite ?_ (fun hkind => hmirror.property_follows hpart hkind) fun _ => ?_
  · rw [hpart.kind_eq]
  · exact (hmirror.expression_follows hpart).mono fun _ _ => Alike.keepsText

theorem object_follows : Follows Phrase.Alike (first.object level) (second.object level) := by
  refine (hmirror.revised.listAt_follows rfl).bind fun _ _ hparts => ?_
  refine .ite ?_ (fun _ => .ofText) fun _ => ?_
  · cases hparts <;> simp
  · refine (Follows.mapM hparts fun _ _ hpart => ?_).bind fun _ _ (_ : List.Forall₂ Loosely _ _) =>
      .ofText
    refine (hmirror.objectItem_follows hpart).bind fun _ _ hitem => ?_
    exact (asAppended_follows hitem).loosely

theorem objectPattern_follows :
    Follows Phrase.Alike (first.objectPattern level) (second.objectPattern level) := by
  refine (hmirror.revised.listAt_follows rfl).bind fun _ _ hparts => ?_
  refine (Follows.mapM hparts fun _ _ hpart =>
    hmirror.objectItem_follows hpart).bind fun _ _ hpieces => ?_
  exact (joined_follows hpieces).printed

theorem ownName_follows : Follows Loosely first.ownName second.ownName := by
  refine hmirror.given_follows rfl .loose fun _ _ hid => ?_
  refine hid.name_follows.bind fun _ _ hname => ?_
  exact (asAppended_follows hname.keepsText).loosely

theorem function_follows : Follows Loosely (first.function level) (second.function level) := by
  have hhead : Follows Loosely first.functionHead
      second.functionHead :=
    hmirror.ownName_follows.loosely
  refine hhead.bind fun _ _ _ => ?_
  exact (hmirror.functionTail_follows (hmirror.revised.listAt_follows rfl)
    (hmirror.revised.require_follows rfl)).loosely

theorem arrowFunction_follows :
    Follows Phrase.Alike (first.arrowFunction level) (second.arrowFunction level) := by
  refine (hmirror.revised.listAt_follows rfl).bind fun _ _ hparts => ?_
  refine (hmirror.expressions_follow hparts).bind fun _ _ hpieces => ?_
  refine (commaSeparated_follows hpieces).bind fun _ _ _ => ?_
  refine (hmirror.revised.require_follows rfl).bind fun _ _ hbody => ?_
  refine .ite ?_ (fun _ => ?_) fun _ => ?_
  · rw [hbody.kind_eq]
  · exact (hmirror.block_follows hbody).printed
  · refine (hmirror.expression_follows hbody).bind fun _ _ hvalue => ?_
    exact (asStarting_follows hvalue.keepsText).printed

theorem method_follows (hpart : part.Revised registry new) :
    Follows Loosely (first.method part level) (second.method new level) := by
  refine .ite ?_ (fun _ => ?_) fun _ => ?_
  · rw [hpart.kind_eq]
  · rw [hmirror.style_eq]
    exact Value.Revised.verbatim_follows first.style hpart
  · refine (hpart.require_follows rfl).bind fun _ _ hfunction => ?_
    refine (hfunction.flag_follows rfl).bind fun _ _ _ => ?_
    refine (hfunction.flag_follows rfl).bind fun _ _ _ => ?_
    refine (hmirror.propertyKey_follows hpart).bind fun _ _ hkey => ?_
    refine (asAppended_follows hkey.keepsText).bind fun _ _ _ => ?_
    exact (hmirror.functionTailOf_follows (.some hfunction)).loosely

theorem classAncestor_follows :
    Follows Loosely (first.classAncestor level) (second.classAncestor level) := by
  refine hmirror.given_follows rfl .loose fun _ _ hancestor => ?_
  refine (hmirror.expression_follows hancestor).bind fun _ _ hvalue => ?_
  exact (asAppended_follows hvalue.keepsText).loosely

theorem classText_follows : Follows Loosely (first.classText level) (second.classText level) := by
  refine hmirror.ownName_follows.bind fun _ _ _ => ?_
  refine hmirror.classAncestor_follows.bind fun _ _ _ => ?_
  refine (hmirror.revised.require_follows rfl).bind fun _ _ hbody => ?_
  refine (Part.Revised.listAt_follows hbody rfl).bind fun _ _ hmembers => ?_
  refine .ite ?_ (fun _ => .loose) fun _ => ?_
  · cases hmembers <;> simp
  · exact (Follows.mapM hmembers fun _ _ hmember =>
      (hmirror.method_follows hmember).loosely).loosely

theorem unary_follows : Follows Phrase.Alike (first.unary level) (second.unary level) := by
  refine (hmirror.revised.require_follows rfl).bind fun operator new hoperator => ?_
  refine (hmirror.expressionAt_follows rfl).bind fun _ _ hargument => ?_
  cases hvalue : operator.value with
  | text word =>
    rw [hvalue] at hoperator
    rw [hoperator.eq_of_leaf rfl]
    refine .ite Iff.rfl (fun _ => .ofText) fun _ => ?_
    refine (asStarting_follows hargument.keepsText).bind fun _ _ _ => ?_
    cases word.toList.getLast? with
    | none => exact .error
    | some sign => exact .ofText
  | _ => exact .error

theorem binary_follows : Follows Phrase.Alike (first.binary level) (second.binary level) := by
  refine (hmirror.revised.require_follows rfl).bind fun _ _ hoperator => ?_
  refine hoperator.asKey_follows.bind fun operator _ hsame => ?_
  subst hsame
  refine (hmirror.expressionAt_follows rfl).bind fun _ _ _ => ?_
  refine (hmirror.expressionAt_follows rfl).bind fun _ _ _ => ?_
  exact .ite (by rw [hmirror.noIn_eq]) (fun _ => .ofText) fun _ =>
    .ofText

theorem update_follows : Follows Phrase.Alike (first.update level) (second.update level) := by
  refine (hmirror.revised.require_follows rfl).bind fun operator new hoperator => ?_
  refine (hmirror.expressionAt_follows rfl).bind fun _ _ hargument => ?_
  have halike := Alike.of_revised hoperator
  refine .ite ?_ (fun _ => ?_) fun _ => ?_
  · rw [hmirror.revised.flag_eq _ rfl]
  · exact (halike.add_follows hargument).bind fun _ _ hsum => .pure ⟨hsum, rfl⟩
  · exact (hargument.add_follows halike).bind fun _ _ hsum => .pure ⟨hsum, rfl⟩

theorem assignment_follows :
    Follows Phrase.Alike (first.assignment level) (second.assignment level) := by
  refine (hmirror.expressionAt_follows rfl).bind fun _ _ _ => ?_
  refine (hmirror.expressionAt_follows rfl).bind fun _ _ _ => ?_
  exact (hmirror.revised.require_follows rfl).printed

theorem assignmentPattern_follows :
    Follows Phrase.Alike (first.assignmentPattern level) (second.assignmentPattern level) := by
  refine (hmirror.expressionAt_follows rfl).bind fun _ _ _ => ?_
  exact (hmirror.expressionAt_follows rfl).printed

theorem conditional_follows :
    Follows Phrase.Alike (first.conditional level) (second.conditional level) := by
  refine (hmirror.expressionAt_follows rfl).bind fun _ _ _ => ?_
  refine (hmirror.expressionAt_follows rfl).bind fun _ _ _ => ?_
  exact (hmirror.expressionAt_follows rfl).printed

theorem sequence_follows : Follows Phrase.Alike (first.sequence level) (second.sequence level) := by
  refine (hmirror.revised.require_follows rfl).bind fun _ _ hpart => ?_
  refine (Part.Revised.elements_follows hpart).bind fun _ _ hparts => ?_
  refine (hmirror.expressions_follow hparts).bind fun _ _ hpieces => ?_
  exact (commaSeparated_follows hpieces).printed

theorem fronted_follows (front : String) :
    Follows Phrase.Alike (first.fronted front strength level)
      (second.fronted front strength level) := by
  refine (hmirror.expressionAt_follows rfl).bind fun _ _ hvalue => ?_
  exact (asAppended_follows hvalue.keepsText).printed

theorem identifier_follows : Follows Phrase.Alike first.identifier second.identifier :=
  hmirror.revised.name_follows.bind fun _ _ hname => .pure ⟨hname, rfl⟩

theorem literal_follows : Follows Phrase.Alike first.literal second.literal := by
  have hvalue := hmirror.revised.literalText_follows
  rw [Printer.literal, Printer.literal]
  rcases hmirror.revised.lookup_eq_or_branches "raw" rfl with
    heq | ⟨old, new, hold, hnew, hbranch, hother⟩
  · rw [heq]
    split
    · exact .ofText
    · exact hvalue.printed
  · rw [hold, hnew]
    cases old with
    | array | node =>
      cases new with
      | array | node => exact hvalue.printed
      | _ => cases hother
    | _ => cases hbranch

/-- The arguments of a call.  They may have been replaced, but then a literal takes the
place of a literal. -/
theorem argumentList_follows :
    Follows (List.Forall₂ (Part.Mirrors first second)) (node.listAt "arguments")
      (other.listAt "arguments") := by
  rcases hmirror.revised.lookup_cases "arguments" with
    ⟨hnone, hnew⟩ | ⟨old, new, hold, hnew, hfield⟩
  · rw [listAt, listAt, part?_eq_none_iff.2 hnone, part?_eq_none_iff.2 hnew]
    exact .pure .nil
  · obtain ⟨part, hpart, rfl⟩ := exists_part hold
    obtain ⟨newPart, hnewPart, rfl⟩ := exists_part hnew
    rcases hfield with (⟨hrevised, -⟩ | ⟨-, -, literal, name, hliteral, hkind, hreplaced⟩)
      | ⟨-, hkey, -⟩
    · refine (Value.Revised.listAt_follows_of_rel ?_).mono fun _ _ hparts =>
        hparts.imp hmirror.parts
      rw [hpart, hnewPart]
      exact .some hrevised
    · obtain ⟨parts, hparts, hvalues⟩ := listAt_of_array hliteral
      obtain ⟨part, rfl, rfl⟩ := List.map_eq_singleton_iff.1 hvalues
      rw [hreplaced] at hnew
      obtain ⟨others, hothers, hnewValues⟩ := listAt_of_array hnew
      obtain ⟨new, rfl, hpath⟩ := List.map_eq_singleton_iff.1 hnewValues
      rw [hparts, hothers]
      exact .pure (.cons (hmirror.literals part new name hkind hpath) .nil)
    · exact absurd hkey (by decide)

theorem arguments_follows : Follows Loosely (first.arguments level) (second.arguments level) := by
  refine hmirror.argumentList_follows.bind fun _ _ hparts => ?_
  refine (hmirror.expressions_follow_of_mirrors hparts).bind fun _ _ hpieces => ?_
  exact (commaSeparated_follows hpieces).loosely

theorem call_follows : Follows Phrase.Alike (first.call level) (second.call level) := by
  refine (hmirror.expressionAt_follows rfl).bind fun _ _ hcallee => ?_
  refine hmirror.arguments_follows.bind fun _ _ _ => ?_
  exact (hcallee.add_follows (.texts _ _)).bind fun _ _ hsum => .pure ⟨hsum, rfl⟩

theorem newCallee_follows (hpart : part.Revised registry new) :
    Follows Loosely (first.newCallee part level) (second.newCallee new level) := by
  refine (hmirror.expression_follows hpart).bind fun _ _ hcontent => ?_
  refine .ite ?_ (fun _ => ?_) fun _ => asAppended_follows hcontent.keepsText
  · rw [hpart.containsCall_eq]
  · exact (asStarting_follows hcontent.keepsText).loosely

theorem newCall_follows : Follows Phrase.Alike (first.newCall level) (second.newCall level) := by
  refine (hmirror.revised.require_follows rfl).bind fun _ _ hcallee => ?_
  refine (hmirror.newCallee_follows hcallee).bind fun _ _ _ => ?_
  exact hmirror.arguments_follows.printed

theorem member_follows : Follows Phrase.Alike (first.member level) (second.member level) := by
  have howner : Follows Loosely (first.memberOwner level)
      (second.memberOwner level) :=
    (hmirror.revised.require_follows rfl).bind fun _ _ hpart =>
      (hmirror.expression_follows hpart).loosely
  refine howner.bind fun _ _ _ => .ite ?_ (fun _ => ?_) fun _ => ?_
  · rw [hmirror.revised.flag_eq _ rfl]
  · exact (hmirror.expressionAt_follows rfl).printed
  · refine (hmirror.revised.require_follows rfl).bind fun _ _ hproperty => ?_
    exact hproperty.name_follows.printed

theorem templatePiece_follows (hpart : Option.Rel (Part.Revised registry) part? new?)
    {quasi : Part node} {newQuasi : Part other} (hquasi : quasi.Revised registry newQuasi)
    (index : Nat) :
    Follows (List.Forall₂ Alike) (first.templatePiece part? quasi index level)
      (second.templatePiece new? newQuasi index level) := by
  refine (hquasi.require_follows rfl).bind fun _ _ hvalue => ?_
  refine (hvalue.require_follows rfl).bind fun _ _ hraw => ?_
  have halike := Alike.of_revised hraw
  cases hpart with
  | none => exact .pure (.cons halike .nil)
  | some hpart =>
    refine hpart.length_follows.bind fun _ _ hlength => ?_
    refine .ite (by rw [hlength]) (fun _ => ?_) fun _ => .pure (.cons halike .nil)
    refine (hpart.item_follows index).bind fun _ _ hitem => ?_
    refine (hmirror.expression_follows hitem).bind fun _ _ hcontent => ?_
    exact (asAppended_follows hcontent.keepsText).bind fun _ _ _ =>
      .pure (.cons halike (.cons (.texts _ _) .nil))

theorem template_follows {quasis : Except Fault (List (Part node))}
    {others : Except Fault (List (Part other))}
    (hquasis : Follows (List.Forall₂ (Part.Revised registry)) quasis others)
    (hpart : Option.Rel (Part.Revised registry) part? new?) :
    Follows Loosely (first.template quasis part? level) (second.template others new? level) := by
  refine hquasis.bind fun _ _ hparts => ?_
  refine (Follows.mapM_zipIdx hparts fun _ _ index hquasi =>
    hmirror.templatePiece_follows hpart hquasi index).bind fun _ _ hpieces => ?_
  have hbacktick : List.Forall₂ Alike [.text "\x60"] [.text "\x60"] := .cons (.same _) .nil
  refine joined_follows (List.Forall₂.imp (fun _ _ => Alike.keepsText) ?_)
  exact List.rel_append (List.rel_append hbacktick (List.rel_flatten hpieces)) hbacktick

theorem templateLiteral_follows :
    Follows Phrase.Alike (first.templateLiteral level) (second.templateLiteral level) := by
  have hexpressions := hmirror.revised.part?_rel "expressions" rfl
  exact (hmirror.template_follows (hmirror.revised.listAt_follows rfl)
    (Part.Revised.filter_isTruthy hexpressions)).printed

theorem taggedTemplate_follows :
    Follows Phrase.Alike (first.taggedTemplate level) (second.taggedTemplate level) := by
  refine (hmirror.expressionAt_follows rfl).bind fun _ _ htag => ?_
  refine (hmirror.revised.require_follows rfl).bind fun _ _ hquasi => ?_
  refine hquasi.asRecord_follows.bind fun _ _ _ => ?_
  have hexpressions := Part.Revised.part?_rel hquasi "expressions" rfl
  refine (hmirror.template_follows (Part.Revised.listAt_follows hquasi rfl)
    (Part.Revised.filter_isTruthy hexpressions)).bind fun _ _ _ => ?_
  exact (htag.add_follows (.texts _ _)).bind fun _ _ hsum => .pure ⟨hsum, rfl⟩

theorem yieldText_follows :
    Follows Phrase.Alike (first.yieldText level) (second.yieldText level) := by
  refine hmirror.given_follows rfl (.pure ?_) fun _ _ hargument => ?_
  · rw [hmirror.revised.flag_eq _ rfl]
    exact Phrase.alike_ofText
  · refine (hmirror.expression_follows hargument).bind fun _ _ hvalue => ?_
    exact (asAppended_follows hvalue.keepsText).printed

theorem metaProperty_follows : Follows Phrase.Alike first.metaProperty second.metaProperty := by
  refine (hmirror.revised.require_follows rfl).bind fun _ _ howner => ?_
  refine howner.name_follows.bind fun _ _ _ => ?_
  refine (hmirror.revised.require_follows rfl).bind fun _ _ hproperty => ?_
  exact hproperty.name_follows.printed

/-- Nodes of one kind are printed by one rule, or there is none for both. -/
theorem phrase?_follows :
    Option.Rel (Follows Phrase.Alike) (first.phrase? level) (second.phrase? level) := by
  rw [Printer.phrase?, Printer.phrase?, hmirror.revised.kind_eq]
  cases node.kind with
  | identifier => exact .some hmirror.identifier_follows
  | literal => exact .some hmirror.literal_follows
  | thisExpression | super => exact .some (.ofText)
  | arrayExpression | arrayPattern => exact .some hmirror.array_follows
  | objectExpression => exact .some hmirror.object_follows
  | objectPattern => exact .some hmirror.objectPattern_follows
  | functionExpression =>
    exact .some (hmirror.function_follows.map fun _ _ _ => Phrase.alike_ofText)
  | arrowFunctionExpression => exact .some hmirror.arrowFunction_follows
  | classExpression => exact .some (hmirror.classText_follows.map fun _ _ _ => Phrase.alike_ofText)
  | unaryExpression => exact .some hmirror.unary_follows
  | updateExpression => exact .some hmirror.update_follows
  | binaryExpression | logicalExpression => exact .some hmirror.binary_follows
  | assignmentExpression => exact .some hmirror.assignment_follows
  | assignmentPattern => exact .some hmirror.assignmentPattern_follows
  | conditionalExpression => exact .some hmirror.conditional_follows
  | callExpression => exact .some hmirror.call_follows
  | newExpression => exact .some hmirror.newCall_follows
  | memberExpression => exact .some hmirror.member_follows
  | sequenceExpression => exact .some hmirror.sequence_follows
  | templateLiteral => exact .some hmirror.templateLiteral_follows
  | taggedTemplateExpression => exact .some hmirror.taggedTemplate_follows
  | spreadElement | restElement | awaitExpression => exact .some (hmirror.fronted_follows _)
  | yieldExpression => exact .some hmirror.yieldText_follows
  | metaProperty => exact .some hmirror.metaProperty_follows
  | _ => exact .none

end Mirroring

end Debundle
