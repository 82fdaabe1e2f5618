import Debundle.Proofs.Rename.Positions
import Debundle.Proofs.Script.Build

/-!
# Renaming a module function

A module function is renamed by renaming its body, with the roles that its first
parameters have.  The body is then changed by the rule, and nothing else of the function
is changed.
-/

namespace Debundle

open Renaming

namespace Value

theorem isFunctionModule_cases {module : Value} (hfunction : module.isFunctionModule = true) :
    module.isFunctionLiteral = true ∧
      ∃ tag fields body, module = .node tag fields ∧ Fields.get? fields "body" = some body := by
  rw [isFunctionModule, Bool.and_eq_true, Option.isSome_iff_exists] at hfunction
  obtain ⟨hliteral, part, hpart⟩ := hfunction
  have hlookup := lookup_of_part? (Option.filter_eq_some_iff.1 hpart).1
  cases module with
  | node tag fields => exact ⟨hliteral, tag, fields, part.value, rfl, hlookup⟩
  | _ => simp [isFunctionLiteral, kind] at hliteral

end Value

/-- A renamed module function is the function with its body renamed by the roles of its
parameters. -/
theorem renameModule_eq_ok {registry : Registry} {tag : String} {fields : Fields}
    {body : Value} {renamed : Renamed}
    (hfunction : (Value.node tag fields).isFunctionModule = true)
    (hbody : Fields.get? fields "body" = some body)
    (hrename : renameModule registry (.node tag fields) = .ok renamed) :
    ∃ params roles, (Value.node tag fields).listAt "params" = .ok params ∧
      Roles.ofParams (params.map Part.value) = .ok roles ∧
      renamed.module.apply (.node tag fields) =
        .node tag (Fields.set fields "body" (renamed.body.apply body)) ∧
      body.RenamesTo registry roles (renamed.body.apply body) := by
  simp only [renameModule, hfunction, Value.lookup_node, hbody, Attempt.bind_eq_ok_iff,
    Attempt.pure_eq_ok_iff] at hrename
  obtain ⟨params, hparams, roles, hroles, ⟨edit, tally⟩, hedit, rfl⟩ := hrename
  exact ⟨params, roles, hparams, hroles, rfl, edit, tally, hedit, rfl⟩

/-- The body of a renamed module function is changed at exactly the positions of the
rule, for the roles that the parameters of the function have. -/
theorem renameModule_changes_by_rule {registry : Registry} {module : Value}
    {renamed : Renamed} (hfunction : module.isFunctionModule = true)
    (hrename : renameModule registry module = .ok renamed) :
    ∃ tag fields body params roles, module = .node tag fields ∧
      Fields.get? fields "body" = some body ∧ module.listAt "params" = .ok params ∧
      Roles.ofParams (params.map Part.value) = .ok roles ∧
      renamed.module.apply module =
        .node tag (Fields.set fields "body" (renamed.body.apply body)) ∧
      Value.ChangedAt (Change registry roles body) body (renamed.body.apply body) := by
  obtain ⟨-, tag, fields, body, rfl, hbody⟩ := Value.isFunctionModule_cases hfunction
  obtain ⟨params, roles, hparams, hroles, hmodule, hchanged⟩ :=
    renameModule_eq_ok hfunction hbody hrename
  exact ⟨tag, fields, body, params, roles, rfl, hbody, hparams, hroles, hmodule, hchanged.changedAt⟩

/-- The module function
`function (e, t, n) { var a = outer(id); return function (t) { return inner(t); }; }`. -/
def requiringModule (outer : String) (id : Value) (inner : String) : Value :=
  Build.function [Build.name "e", Build.name "t", Build.name "n"]
    [Build.declare (Build.name "a") (Build.call (Build.name outer) [id]),
      Build.giveBack (Build.function [Build.name "t"]
        [Build.giveBack (Build.call (Build.name inner) [Build.name "t"])])]

theorem renameModule_changes_by_rule_requiring :
    ∃ registry renamed, (requiringModule "n" (Build.number 1) "e").isFunctionModule = true ∧
      renameModule registry (requiringModule "n" (Build.number 1) "e") = .ok renamed ∧
      renamed.module.apply (requiringModule "n" (Build.number 1) "e") =
        requiringModule "require" (requirePath (.text "Foo")) "module" ∧
      ∃ tag fields body params roles,
        requiringModule "n" (Build.number 1) "e" = .node tag fields ∧
        Fields.get? fields "body" = some body ∧
        (requiringModule "n" (Build.number 1) "e").listAt "params" = .ok params ∧
        Roles.ofParams (params.map Part.value) = .ok roles ∧
        renamed.module.apply (requiringModule "n" (Build.number 1) "e") =
          .node tag (Fields.set fields "body" (renamed.body.apply body)) ∧
        Value.ChangedAt (Change registry roles body) body (renamed.body.apply body) := by
  have hresult : (renameModule { names := [(1, .text "Foo")] }
      (requiringModule "n" (Build.number 1) "e")).toOption.map
        (fun renamed => renamed.module.apply (requiringModule "n" (Build.number 1) "e")) =
      some (requiringModule "require" (requirePath (.text "Foo")) "module") := by
    decide +kernel
  obtain ⟨renamed, hrename, hmodule⟩ := Attempt.of_toOption_map hresult
  exact ⟨_, renamed, by decide, hrename, hmodule, renameModule_changes_by_rule (by decide) hrename⟩

end Debundle
