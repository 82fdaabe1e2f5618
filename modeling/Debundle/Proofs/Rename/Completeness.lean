import Debundle.Proofs.Rename.Shadowing

/-!
# Which references to parameters are renamed

A reference that no inner scope binds denotes a parameter of the module function, if one
has its name.  Such references are renamed with two exceptions.  Parameter lists are not
looked at, so a reference in a default value keeps its name.  And an array counts as
declaring a name also if only a function somewhere inside it does, so a reference may be
kept for a declaration that does not concern it.
-/

namespace Debundle

open Renaming

/-- The edge leads into parameters, or out of an array with a function inside it that
declares the name for itself. -/
def Edge.overlooks (name : String) (edge : Edge) : Bool :=
  edge.leadsToParam || edge.parent.isArray && edge.parent.hoistsInside name

namespace Value

/-- Some edge on the way to the position keeps the name from being renamed. -/
def isOverlooked (root : Value) (position : Position) (name : String) : Bool :=
  (root.innermost (Edge.overlooks name) (Edge.overlooks name) position).isSome

variable {registry : Registry} {roles : Roles} {role : Role} {body : Value}
  {position : Position} {name : String}

theorem isOverlooked_iff :
    body.isOverlooked position name = true ↔
      ∃ above edge, body.Crosses position above edge ∧ edge.overlooks name = true :=
  innermost_isSome_iff

variable {slot : Slot} {module : Value} {tag : String} {fields : Fields} {params : List Value}

/-- A reference to a parameter is changed, unless it is overlooked. -/
theorem change_of_reference (hfills : body.fills slot = true)
    (hreference : body.RefersAt position name) (hrole : roles.role? name = some role)
    (houter : ¬ body.BindsFor position name) (hseen : body.isOverlooked position name = false) :
    ∃ tag fields, Kind.ofTag tag = .identifier ∧
      Change registry roles body position
        (.node tag (Fields.set fields "name" (.text role.word))) := by
  rw [← Bool.not_eq_true, isOverlooked_iff] at hseen
  obtain ⟨⟨node, hat, hkind, htext⟩, husage⟩ := hreference
  have hvisited : Visited registry roles body position := by
    intro above edge hcross
    constructor
    · rw [← Bool.not_eq_true,
        isSkipped_iff_of_reference hfills ⟨node, hat, hkind, htext⟩ husage hcross]
      exact fun hleads => hseen ⟨above, edge, hcross, by rw [Edge.overlooks, hleads, Bool.true_or]⟩
    · rintro ⟨hstep, module, hrequires⟩
      obtain ⟨-, below, rfl⟩ := hcross
      rw [hstep] at hat
      have hliteral := (hrequires.below_arguments hfills hat (by simp [hkind])).1
      cases hkind.symm.trans hliteral
  have hbound : roles.BoundAt body position name role := by
    refine ⟨hrole, fun above edge hcross hdrops => ?_⟩
    rcases binds_of_drops hfills hcross hdrops with hbinds | ⟨harray, hinside⟩
    · exact houter hbinds
    · exact hseen ⟨above, edge, hcross,
        by rw [Edge.overlooks, harray, hinside, Bool.and_self, Bool.or_true]⟩
  cases node with
  | node tag fields => exact ⟨tag, fields, hkind, .reference hat hkind htext hvisited hbound⟩
  | _ => simp [kind] at hkind

/-- A reference that is overlooked is not changed. -/
theorem not_change_of_overlooked (hfills : body.fills slot = true)
    (hname : body.Names position name) (hoverlooked : body.isOverlooked position name = true)
    (value : Value) : ¬ Change registry roles body position value := by
  intro hchange
  obtain ⟨hvisited, tag, fields, role, -, hbound, -⟩ := hchange.of_names hname
  obtain ⟨above, edge, hcross, hedge⟩ := isOverlooked_iff.1 hoverlooked
  rcases Bool.or_eq_true_iff.1 hedge with hleads | hinside
  · have hskipped := (hvisited above edge hcross).1
    rw [isSkipped_of_leadsToParam hleads] at hskipped
    cases hskipped
  · obtain ⟨harray, hinside⟩ := Bool.and_eq_true_iff.1 hinside
    obtain ⟨inner, hparent⟩ := fills_at? hfills hcross.1
    refine hbound.2 above edge hcross ((drops_iff hparent).2 (.inr ⟨harray, ?_⟩))
    rw [declares, hinside, Bool.or_true]

theorem HasParts.isOverlooked_body (hparts : module.HasParts tag fields body params) :
    module.isOverlooked (.field "body" :: position) name = body.isOverlooked position name := by
  obtain rfl := hparts.node_eq
  have hroot : Edge.overlooks name ⟨.node tag fields, .field "body"⟩ = false := by
    rcases hparts.kind_eq with hkind | hkind <;>
      simp [Edge.overlooks, Edge.leadsToParam, kind, hkind, Kind.paramField?, isArray]
  rw [Bool.eq_iff_iff, isOverlooked, innermost_cons, hroot, child?_node, hparts.body_eq]
  simp [isOverlooked]

theorem HasParts.isOverlooked_params (hparts : module.HasParts tag fields body params) :
    module.isOverlooked (.field "params" :: position) name = true := by
  obtain rfl := hparts.node_eq
  rw [isOverlooked, innermost_cons]
  left
  rcases hparts.kind_eq with hkind | hkind <;>
    simp [Edge.overlooks, Edge.leadsToParam, kind, hkind, Kind.paramField?]

/-- The references in a function body to parameters, after a renaming. -/
theorem RenamesTo.names_of_reference {after : Value}
    (hrename : RenamesTo registry roles body after) (hfills : body.fills slot = true)
    (hreference : body.RefersAt position name) (hrole : roles.role? name = some role)
    (houter : ¬ body.BindsFor position name) :
    after.Names position (if body.isOverlooked position name then name else role.word) := by
  cases hoverlooked : body.isOverlooked position name with
  | true =>
    exact hrename.names_of_not_change hfills hreference.1
      (not_change_of_overlooked hfills hreference.1 hoverlooked)
  | false =>
    obtain ⟨tag, fields, hkind, hchange⟩ :=
      change_of_reference hfills hreference hrole houter hoverlooked
    exact ⟨_, hrename.at?_of_change hchange, hkind, by simp [Fields.get?_set]⟩

end Value

/-- The fault of a numeral with too many digits, which is the argument of a call of the
parameter for `require`. -/
def Fault.IsOfRequire (module : Value) (fault : Fault) : Prop :=
  ∃ position call callee literal numeral, module.at? position = some call ∧
    call.CallsWith callee literal ∧ module.roleOf? callee = some .require ∧
    literal.constant = .text numeral ∧ numeral.toList.all Char.isDigit = true ∧
    numeralLimit < numeral.toList.length ∧ fault = .tooManyDigits numeral.toList.length

theorem Value.HasParts.allows_isOfRequire {module body : Value} {tag : String}
    {fields : Fields} {params : List Value} (hparts : module.HasParts tag fields body params)
    {roles : Roles} (hroles : ∀ name, roles.role? name = module.roleOf? name) :
    roles.Allows (Fault.IsOfRequire module) body := by
  rintro position literal fault ⟨call, callee, hat, hcall, hbound⟩ herror
  obtain ⟨numeral, hnumeral⟩ := moduleIndex_eq_error herror
  have hinside : module.at? (.field "body" :: position) = some call := by
    rw [hparts.node_eq, Value.at?_cons, Value.child?, hparts.body_eq]
    exact hat
  exact ⟨_, call, callee, literal, numeral, hinside, hcall, hroles callee ▸ hbound.1, hnumeral⟩

/-- A renaming of a well-formed module function returns, unless an argument of `require` has
too many digits.  Then every reference to one of the first three parameters has the name of
the role of that parameter, unless it is overlooked. -/
theorem renameModule_renames_references {registry : Registry} {module : Value}
    (hmodule : module.IsModuleFunction) :
    (∃ renamed, renameModule registry module = .ok renamed ∧
      ∀ position name role, module.RefersAt position name → module.roleOf? name = some role →
        module.home position name = none →
        (renamed.module.apply module).Names position
          (if module.isOverlooked position name then name else role.word)) ∨
    ∃ fault, fault.IsOfRequire module ∧ renameModule registry module = .error fault := by
  obtain ⟨tag, fields, body, params, hparts⟩ := hmodule.exists_parts
  have hreturns := hparts.renameModule_returnsOr registry fun _ => hparts.allows_isOfRequire
  refine hreturns.imp ?_ id
  rintro ⟨renamed, hrename⟩
  refine ⟨renamed, hrename, fun position name role hreference hrole houter => ?_⟩
  obtain ⟨roles, processed, hroles, happly, hbody⟩ := hparts.renameModule_eq_ok hrename
  rw [happly]
  rcases hparts.refersAt_cases hreference with ⟨rest, rfl, hinside⟩ | ⟨rest, rfl⟩
  · have hnot : ¬ body.BindsFor rest name := by
      rw [← hparts.home_isSome_iff, houter]
      simp
    rw [hparts.isOverlooked_body]
    obtain ⟨node, hat, hnode⟩ := hbody.names_of_reference hparts.body_fills hinside
      ((hroles name).trans hrole) hnot
    exact ⟨node, by rw [Value.at?_set_body, hat], hnode⟩
  · rw [hparts.isOverlooked_params]
    obtain ⟨node, hat, hnode⟩ := hreference.1
    obtain rfl := hparts.node_eq
    exact ⟨node, by rw [Value.at?_set_other (by decide), hat], hnode⟩

theorem renameModule_renames_references_requiring :
    ∃ registry renamed position, (requiringModule "n" (Build.number 1) "e").IsModuleFunction ∧
      (requiringModule "n" (Build.number 1) "e").RefersAt position "e" ∧
      (requiringModule "n" (Build.number 1) "e").roleOf? "e" = some .module ∧
      (requiringModule "n" (Build.number 1) "e").home position "e" = none ∧
      renameModule registry (requiringModule "n" (Build.number 1) "e") = .ok renamed ∧
      (renamed.module.apply (requiringModule "n" (Build.number 1) "e")).Names position
        "module" := by
  have hmodule : (requiringModule "n" (Build.number 1) "e").IsModuleFunction := by
    decide +kernel
  have hreference : (requiringModule "n" (Build.number 1) "e").RefersAt
      [.field "body", .field "body", .item 1, .field "argument", .field "body", .field "body",
        .item 0, .field "argument", .field "callee"] "e" :=
    ⟨⟨Build.name "e", by decide +kernel, by decide +kernel, by decide +kernel⟩,
      by decide +kernel⟩
  have hrole : (requiringModule "n" (Build.number 1) "e").roleOf? "e" = some .module := by
    decide +kernel
  have hreturns : (renameModule { names := [(1, .text "Foo")] }
      (requiringModule "n" (Build.number 1) "e")).toOption.isSome = true := by
    decide +kernel
  obtain ⟨renamed, hrename⟩ := Attempt.of_toOption_isSome hreturns
  refine ⟨_, renamed, _, hmodule, hreference, hrole, by decide +kernel, hrename, ?_⟩
  rcases renameModule_renames_references hmodule with
    ⟨result, hresult, hnames⟩ | ⟨fault, -, herror⟩
  · cases hrename.symm.trans hresult
    exact hnames _ "e" .module hreference hrole (by decide +kernel)
  · cases hrename.symm.trans herror

/-- The module function `function (e) { (function () { var e; }); return e; }`. -/
def siblingModule : Value :=
  Build.function [Build.name "e"]
    [Build.perform (Build.function [] [Build.declare (Build.name "e") .null]),
      Build.giveBack (Build.name "e")]

/-- The declaration in the inner function is not that of the reference, which keeps its
name nevertheless. -/
theorem renameModule_overlooks_sibling :
    ∃ position renamed, siblingModule.IsModuleFunction ∧ siblingModule.RefersAt position "e" ∧
      siblingModule.roleOf? "e" = some .module ∧ siblingModule.home position "e" = none ∧
      renameModule {} siblingModule = .ok renamed ∧
      ¬ (renamed.module.apply siblingModule).Names position "module" := by
  have hresult : (renameModule {} siblingModule).toOption.map
      (fun renamed => renamed.module.apply siblingModule) = some siblingModule := by
    decide +kernel
  obtain ⟨renamed, hrename, hmodule⟩ := Attempt.of_toOption_map hresult
  have hat : siblingModule.at? [.field "body", .field "body", .item 1, .field "argument"] =
      some (Build.name "e") := by decide +kernel
  refine ⟨_, renamed, by decide +kernel,
    ⟨⟨Build.name "e", hat, by decide +kernel, by decide +kernel⟩, by decide +kernel⟩,
    by decide +kernel, by decide +kernel, hrename, ?_⟩
  rintro ⟨node, hnode, -, htext⟩
  rw [hmodule, hat] at hnode
  cases hnode
  exact absurd htext (by decide +kernel)

end Debundle
