import Debundle.Proofs.Rename.Module
import Debundle.Proofs.Script.MirrorStatement

/-!
# Printing a renamed module

A module that can be rendered can be rendered after its parameters were renamed.  A node is
printed from what its parts are printed as, so this is an induction on the size of the node,
with one case for each printing rule.
-/

namespace Debundle

open Attempt Renaming

theorem Phrase.Alike.inPlace {before after : Phrase} (halike : before.Alike after)
    (strength : Nat) : Value.Alike (before.inPlace strength) (after.inPlace strength) := by
  rw [Phrase.inPlace, Phrase.inPlace, halike.strength]
  split
  · exact .texts _ _
  · exact halike.content

namespace Mirroring

open Value

variable {registry : Registry} {node other : Value} {first : Printer node} {second : Printer other}
  (hmirror : Mirroring registry first second)

include hmirror

theorem asExpression_follows (strength : Nat) (level : Int) :
    Follows Alike (first.asExpression strength level) (second.asExpression strength level) := by
  have hphrase : Option.Rel _ (first.phrase? level) (second.phrase? level) :=
    hmirror.phrase?_follows
  rw [Printer.asExpression, Printer.asExpression, hmirror.style_eq]
  generalize first.phrase? level = phrase?, second.phrase? level = other? at hphrase
  cases hphrase with
  | some hstep => exact hstep.map fun _ _ halike => halike.inPlace strength
  | none => exact (hmirror.revised.verbatim_follows first.style).map fun _ _ _ => .texts _ _

theorem asStatement_follows (level : Int) :
    Follows Loosely (first.asStatement level) (second.asStatement level) := by
  have hstatement : Option.Rel _ (first.statement? level) (second.statement? level) :=
    hmirror.statement?_follows
  have hphrase : Option.Rel _ (first.phrase? level) (second.phrase? level) :=
    hmirror.phrase?_follows
  rw [Printer.asStatement, Printer.asStatement, hmirror.style_eq]
  generalize first.statement? level = text?, second.statement? level = otherText? at hstatement
  generalize first.phrase? level = phrase?, second.phrase? level = other? at hphrase
  cases hstatement with
  | some hstep => exact hstep
  | none =>
    cases hphrase with
    | some hstep =>
      exact hstep.bind fun _ _ halike => expressionStatement_follows halike.content.keepsText
    | none => exact hmirror.revised.verbatim_follows first.style

theorem standalone_follows : Follows Alike first.standalone second.standalone := by
  have hstatement : Option.Rel _ (first.statement? 0) (second.statement? 0) :=
    hmirror.statement?_follows
  have hexpression := hmirror.asExpression_follows Precedence.sequence 0
  rw [Printer.standalone, Printer.standalone]
  generalize first.statement? 0 = text?, second.statement? 0 = otherText? at hstatement
  cases hstatement with
  | some hstep => exact hstep.map fun _ _ _ => .texts _ _
  | none => exact hexpression

end Mirroring

namespace Value

variable {registry : Registry} {before after : Value}

theorem text_of_literal {style : Style} {noIn : Bool} {literal content : Value} {strength : Nat}
    {level : Int} (hkind : literal.kind = .literal)
    (hcontent : (literal.print style noIn).expression strength level = .ok content) :
    ∃ text, content = .text text := by
  rcases comesOut_of_expression hcontent with htext | ⟨hother, -⟩ | ⟨hother, -⟩
  · exact htext
  · cases hkind.symm.trans hother
  · rw [hkind] at hother
    exact absurd hother (by decide)

/-- The path that is required is printed, as a literal was before it. -/
theorem follows_requirePath (style : Style) (noIn : Bool) {literal : Value}
    (hkind : literal.kind = .literal) (name : Value) :
    (literal.print style noIn).Follows ((requirePath name).print style noIn) := by
  have hpath : (requirePath name).kind = .literal := rfl
  constructor
  · intro level _ _
    rw [print_eq]
    exact ⟨_, rfl, trivial⟩
  · intro strength level content hcontent
    obtain ⟨text, rfl⟩ := text_of_literal hkind hcontent
    have hother : ∃ other, ((requirePath name).print style noIn).expression strength level =
        .ok other := by
      rw [print_eq]
      exact ⟨_, rfl⟩
    obtain ⟨other, hother⟩ := hother
    obtain ⟨path, rfl⟩ := text_of_literal hpath hother
    exact ⟨_, hother, .texts _ _⟩

theorem Revised.mirroring (hrevised : Revised registry before after) (style : Style)
    (noIn : Bool) :
    Mirroring registry (before.printerIn style noIn) (after.printerIn style noIn) := by
  induction hsize : before.size using Nat.strongRecOn generalizing before after noIn with
  | ind size ih =>
    refine ⟨hrevised, rfl, rfl, fun _ _ => rfl, fun part new hpart noIn => ?_,
      fun part new name hkind hpath noIn => ?_⟩
    · have hmirror := ih part.value.size (hsize ▸ part.smaller) hpart noIn rfl
      show (part.value.print style noIn).Follows (new.value.print style noIn)
      rw [print_eq, print_eq]
      exact ⟨hmirror.asStatement_follows, hmirror.asExpression_follows⟩
    · show (part.value.print style noIn).Follows (new.value.print style noIn)
      rw [hpath]
      exact follows_requirePath style noIn hkind name

theorem Revised.script_follows (hrevised : Revised registry before after) (style : Style) :
    Follows Alike (before.script style) (after.script style) :=
  (hrevised.mirroring style false).standalone_follows

end Value

/-- The body of a module function is rendered, statement by statement if it is a block. -/
theorem renderModule_body {render : Renderer} {tag : String} {fields : Fields} {body : Value}
    (hfunction : (Value.node tag fields).isFunctionModule = true)
    (hbody : Fields.get? fields "body" = some body) :
    renderModule render (.node tag fields) =
      if body.kind = .blockStatement then do
        let pieces ← (← body.listAt "body").mapM fun statement => render statement.value
        return .text (← joined "\n" pieces)
      else render body := by
  rw [renderModule, hfunction, Value.lookup_node, hbody]

theorem renderModule_follows {registry : Registry} {tag : String} {fields : Fields}
    {body new : Value} (style : Style)
    (hfunction : (Value.node tag fields).isFunctionModule = true)
    (hbody : Fields.get? fields "body" = some body)
    (hrevised : Value.Revised registry body new) :
    Follows Value.Alike (renderModule (Value.script style) (.node tag fields))
      (renderModule (Value.script style) (.node tag (Fields.set fields "body" new))) := by
  have hnew : Fields.get? (Fields.set fields "body" new) "body" = some new := by
    rw [Fields.get?_set, if_pos rfl]
  have hother : (Value.node tag (Fields.set fields "body" new)).isFunctionModule = true := by
    rw [Value.isFunctionModule, Bool.and_eq_true, Value.given?_isSome_iff] at hfunction ⊢
    obtain ⟨hliteral, held, hheld, hnull⟩ := hfunction
    cases hheld.symm.trans hbody
    exact ⟨hliteral, new, hnew, hrevised.isNull_eq.trans hnull⟩
  rw [renderModule_body hfunction hbody, renderModule_body hother hnew, hrevised.kind_eq]
  refine .ite Iff.rfl (fun _ => ?_) fun _ => hrevised.script_follows style
  refine (hrevised.listAt_follows rfl).bind fun _ _ hparts => ?_
  refine (Follows.mapM hparts fun _ _ hpart =>
    hpart.script_follows style).bind fun _ _ hpieces => ?_
  exact (joined_follows (hpieces.imp fun _ _ => Value.Alike.keepsText)).bind fun _ _ _ =>
    .pure (.texts _ _)

/-- A module that can be rendered can still be rendered after the renaming, whatever the
module and the style are, and a text does not become anything else. -/
theorem renderModule_succeeds_after_renameModule {registry : Registry} {style : Style}
    {module source : Value} {renamed : Renamed}
    (hrename : renameModule registry module = .ok renamed)
    (hrender : renderModule (Value.script style) module = .ok source) :
    ∃ other, renderModule (Value.script style) (renamed.module.apply module) = .ok other ∧
      Value.KeepsText source other := by
  cases hfunction : module.isFunctionModule with
  | true =>
    obtain ⟨-, tag, fields, body, rfl, hbody⟩ := Value.isFunctionModule_cases hfunction
    obtain ⟨-, roles, -, -, hmodule, hchanged⟩ := renameModule_eq_ok hfunction hbody hrename
    rw [hmodule]
    obtain ⟨other, hother, halike⟩ :=
      renderModule_follows style hfunction hbody ⟨roles, hchanged⟩ source hrender
    exact ⟨other, hother, halike.keepsText⟩
  | false =>
    have hkept : renamed.module.apply module = module := by
      simp only [renameModule, hfunction] at hrename
      cases hrename
      rfl
    rw [hkept]
    exact ⟨source, hrender, fun text htext => ⟨text, htext⟩⟩

/-- The module function `function (e, t, n) { e.exports = { n, x }; n(1); }`. -/
def shorthandModule : Value :=
  Build.function [Build.name "e", Build.name "t", Build.name "n"]
    [Build.perform (Build.assign (Build.member (Build.name "e") "exports")
        (Build.shorthands ["n", "x"])),
      Build.perform (Build.call (Build.name "n") [Build.number 1])]

theorem renderModule_succeeds_after_renameModule_shorthand :
    ∃ registry renamed source, renameModule registry shorthandModule = .ok renamed ∧
      renderModule (Value.script {}) shorthandModule = .ok source ∧
      renamed.module.apply shorthandModule ≠ shorthandModule ∧
      ∃ other, renderModule (Value.script {}) (renamed.module.apply shorthandModule) = .ok other ∧
        Value.KeepsText source other := by
  have hrenamed : (renameModule { names := [(1, .text "Foo")] } shorthandModule).toOption.map
      (fun renamed => decide (renamed.module.apply shorthandModule ≠ shorthandModule)) =
        some true := by
    decide +kernel
  have hrendered :
      (renderModule (Value.script {}) shorthandModule).toOption.isSome = true := by
    decide +kernel
  obtain ⟨renamed, hrename, hchanged⟩ := of_toOption_map hrenamed
  obtain ⟨source, hrender⟩ := of_toOption_isSome hrendered
  exact ⟨_, renamed, source, hrename, hrender, of_decide_eq_true hchanged,
    renderModule_succeeds_after_renameModule hrename hrender⟩

end Debundle
