import Debundle.Proofs.Rename.Module
import Debundle.Proofs.Rename.Totality
import Debundle.Proofs.Table.Built
import Debundle.Proofs.Table.Sources

/-!
# Links between modules

A call of `require` with the id of a module is pointed at the name of that module, be it
before, after or the module of the call itself.  A call for anything else keeps its
argument.  If all names differ, the source of the module is found under that name.
-/

namespace Debundle

open Renaming

/-- The literal is the id of the module. -/
def NamedModule.IsMeantBy (module : NamedModule) (literal : Value) : Prop :=
  moduleIndex literal.constant = .ok (some (module.id : Int))

variable {registry : Registry} {roles : Roles} {root literal name body processed value : Value}
  {position : Position} {table : ModuleTable} {render : Renderer} {wrapper : Value}

theorem requiresAt_iff : RequiresAt registry roles root position name ↔
    ∃ literal, RequireCall roles root position literal ∧
      registry.resolve literal.constant = .ok (some name) := by
  constructor
  · rintro ⟨call, callee, hat, ⟨hkind, hcallee, literal, harguments, hliteral, hresolve⟩, hbound⟩
    exact ⟨literal, ⟨call, callee, hat, ⟨hkind, hcallee, harguments, hliteral⟩, hbound⟩, hresolve⟩
  · rintro ⟨literal, ⟨call, callee, hat, hcall, hbound⟩, hresolve⟩
    exact ⟨call, callee, hat, ⟨hcall.kind, hcall.callee, literal, hcall.arguments, hcall.literal,
      hresolve⟩, hbound⟩

namespace RequireCall

variable (hcall : RequireCall roles root position literal)

include hcall

theorem resolve_of_requiresAt (hrequires : RequiresAt registry roles root position name) :
    registry.resolve literal.constant = .ok (some name) := by
  obtain ⟨other, hother, hresolve⟩ := requiresAt_iff.1 hrequires
  cases hcall.arguments_at.symm.trans hother.arguments_at
  exact hresolve

/-- The arguments are changed only to the name that they lead to. -/
theorem change_arguments
    (hchange : Change registry roles root (position ++ [.field "arguments"]) value) :
    ∃ name, registry.resolve literal.constant = .ok (some name) := by
  generalize hposition : position ++ [.field "arguments"] = changed at hchange
  cases hchange with
  | reference hat =>
    rw [← hposition, hcall.arguments_at] at hat
    cases hat
  | @argument other name hrequires =>
    have hposition := List.append_cancel_right hposition
    subst hposition
    exact ⟨name, hcall.resolve_of_requiresAt hrequires⟩

/-- The literal itself is not changed, but replaced with the arguments. -/
theorem not_change_literal :
    ¬ Change registry roles root (position ++ [.field "arguments"] ++ [.item 0]) value := by
  intro hchange
  generalize hposition : position ++ [.field "arguments"] ++ [.item 0] = changed at hchange
  cases hchange with
  | reference hat hkind =>
    rw [← hposition, hcall.literal_at] at hat
    cases hat
    cases hkind.symm.trans hcall.literal_kind
  | argument => simpa using (List.append_inj' hposition rfl).2

end RequireCall

/-- An argument is found among the names of a registry if it is an id that has one. -/
theorem Registry.resolve_eq_some_iff :
    registry.resolve value = .ok (some name) ↔
      ∃ id, moduleIndex value = .ok (some id) ∧ registry.name? id = some name := by
  rw [Registry.resolve, Attempt.bind_eq_ok_iff]
  simp only [Attempt.pure_eq_ok_iff, Option.bind_eq_some_iff]
  constructor
  · rintro ⟨index, hindex, id, rfl, hname⟩
    exact ⟨id, hindex, hname⟩
  · rintro ⟨id, hindex, hname⟩
    exact ⟨some id, hindex, id, rfl, hname⟩

namespace ModuleTable.IsBuilt

variable (hbuilt : table.IsBuilt render wrapper)

include hbuilt

theorem nodup_id : (table.modules.map fun module => module.id).Nodup := by
  have hids := hbuilt.names.nodup_id
  rwa [List.map_map] at hids

/-- A literal leads to a name if it is the id of a module of that name. -/
theorem resolve_iff : table.registry.resolve literal.constant = .ok (some name) ↔
    ∃ target ∈ table.modules, target.IsMeantBy literal ∧ target.name = name := by
  simp only [Registry.resolve_eq_some_iff, hbuilt.names.name?_eq_some_iff, List.mem_map,
    NamedModule.IsMeantBy]
  constructor
  · rintro ⟨id, hindex, -, ⟨target, htarget, rfl⟩, rfl, hname⟩
    exact ⟨target, htarget, hindex, hname⟩
  · rintro ⟨target, htarget, hindex, hname⟩
    exact ⟨target.id, hindex, target.toNamedModule, ⟨target, htarget, rfl⟩, rfl, hname⟩

end ModuleTable.IsBuilt

/-- In the body of a function, calls of `require` are linked to the modules of a table. -/
structure Linked (table : ModuleTable) (roles : Roles) (body processed : Value) : Prop where
  changed : Value.ChangedAt (Change table.registry roles body) body processed
  /-- A call is rewritten if it has the id of a module, and then to the name of that
  module. -/
  rewritten : ∀ position name, RequiresAt table.registry roles body position name ↔
    ∃ literal, RequireCall roles body position literal ∧
      ∃ target ∈ table.modules, target.IsMeantBy literal ∧ target.name = name
  pointed : ∀ position literal, RequireCall roles body position literal →
    Visited table.registry roles body position →
    ∀ target ∈ table.modules, target.IsMeantBy literal →
      processed.at? (position ++ [.field "arguments"]) =
        some (.array [requirePath target.name])
  kept : ∀ position literal, RequireCall roles body position literal →
    (∀ above value, above <+: position → ¬ Change table.registry roles body above value) →
    (∀ target ∈ table.modules, ¬ target.IsMeantBy literal) →
      ∃ kept, processed.at? (position ++ [.field "arguments"]) = some (.array [kept]) ∧
        kept.outline = literal.outline ∧
        (literal.fills (.one [.literal]) = true → kept = literal)

/-- Without a name for the argument nothing is changed from the call down to it. -/
theorem RequireCall.not_change (hcall : RequireCall roles root position literal)
    (hnone : ∀ name, registry.resolve literal.constant ≠ .ok (some name))
    (habove : ∀ above value, above <+: position → ¬ Change registry roles root above value) :
    ∀ above value, above <+: position ++ [.field "arguments"] →
      ¬ Change registry roles root above value := by
  intro above value hprefix hchange
  rcases List.prefix_concat_iff.1 hprefix with rfl | hprefix
  · obtain ⟨name, hname⟩ := hcall.change_arguments hchange
    exact hnone name hname
  · exact habove above value hprefix hchange

theorem Value.eq_singleton_of_outline {items : List Value}
    (houtline : value.outline = (Value.array items).outline) (hitems : items.length = 1) :
    ∃ item, value = .array [item] := by
  cases value with
  | array others =>
    rw [outline, outline, Outline.array.injEq, hitems, List.length_eq_one_iff] at houtline
    obtain ⟨item, rfl⟩ := houtline
    exact ⟨item, rfl⟩
  | _ => cases houtline

theorem RequireCall.kept (hcall : RequireCall roles root position literal)
    (hrename : root.RenamesTo registry roles processed)
    (hnone : ∀ name, registry.resolve literal.constant ≠ .ok (some name))
    (habove : ∀ above value, above <+: position → ¬ Change registry roles root above value) :
    ∃ kept, processed.at? (position ++ [.field "arguments"]) = some (.array [kept]) ∧
      kept.outline = literal.outline ∧
      (literal.fills (.one [.literal]) = true → kept = literal) := by
  have hcalls := hcall.not_change hnone habove
  obtain ⟨arguments, harguments, houtline⟩ :
      ∃ arguments, processed.at? (position ++ [.field "arguments"]) = some arguments ∧
        arguments.outline = (Value.array [literal]).outline := by
    have hsame := hrename.changedAt.unchanged _ hcalls
    rwa [hcall.arguments_at, Option.map_some, Option.map_eq_some_iff] at hsame
  obtain ⟨kept, rfl⟩ := Value.eq_singleton_of_outline houtline rfl
  have hitems : ∀ above value, above <+: position ++ [.field "arguments"] ++ [.item 0] →
      ¬ Change registry roles root above value := by
    intro above value hprefix hchange
    rcases List.prefix_concat_iff.1 hprefix with rfl | hprefix
    · exact hcall.not_change_literal hchange
    · exact hcalls above value hprefix hchange
  have hkept : processed.at? (position ++ [.field "arguments"] ++ [.item 0]) = some kept := by
    rw [Value.at?_append, harguments]
    rfl
  rcases hrename.at? hitems with ⟨hold, -⟩ | ⟨inner, old, new, hold, hnew, hinner, hroot⟩
  · cases hcall.literal_at.symm.trans hold
  · cases hcall.literal_at.symm.trans hold
    cases hkept.symm.trans hnew
    exact ⟨kept, harguments, hinner.outline_eq hroot,
      fun hfills => hinner.eq_of_literal hfills hcall.literal_kind⟩

theorem ModuleTable.IsBuilt.linked (hbuilt : table.IsBuilt render wrapper)
    (hrename : body.RenamesTo table.registry roles processed) :
    Linked table roles body processed := by
  have hrewritten : ∀ position name, RequiresAt table.registry roles body position name ↔
      ∃ literal, RequireCall roles body position literal ∧
        ∃ target ∈ table.modules, target.IsMeantBy literal ∧ target.name = name := by
    intro position name
    simp only [requiresAt_iff, hbuilt.resolve_iff]
  refine ⟨hrename.changedAt, hrewritten, ?_, ?_⟩
  · intro position literal hcall hvisited target htarget hmeant
    have hrequires := (hrewritten position target.name).2
      ⟨literal, hcall, target, htarget, hmeant, rfl⟩
    exact hrename.at?_of_change (.argument hrequires hvisited)
  · intro position literal hcall habove hother
    apply hcall.kept hrename _ habove
    intro name hname
    obtain ⟨target, htarget, hmeant, -⟩ := hbuilt.resolve_iff.1 hname
    exact hother target htarget hmeant

/-- In every table that is built, calls of `require` lead to the modules whose ids they
have, wherever those stand, and all other calls keep their argument.  If no two modules
have the same name, the source of a module is found under its name. -/
theorem build_links (hbuild : ModuleTable.build render wrapper = .ok table) :
    (wrapper.moduleArray >>= Value.elements) = .ok table.slots ∧
      (∀ id body, (∃ target ∈ table.modules, target.id = id ∧ target.body = body) ↔
        table.slots[id]? = some body ∧ body.isNull = false) ∧
      (∀ module ∈ table.modules, module.body.isFunctionModule = true →
        ∃ tag fields body params roles processed, module.body = .node tag fields ∧
          Fields.get? fields "body" = some body ∧
          (Value.node tag fields).listAt "params" = .ok params ∧
          Roles.ofParams (params.map Part.value) = .ok roles ∧
          module.processed = .node tag (Fields.set fields "body" processed) ∧
          Linked table roles body processed) ∧
      ((∀ left ∈ table.modules, ∀ right ∈ table.modules, left.id ≠ right.id →
          (left.name == right.name) = false) →
        table.sources = (table.modules.map fun module => (module.name, module.source)) ∧
        ∀ target ∈ table.modules, (target.name == target.name) = true →
          table.sources.lookup target.name = some target.source) := by
  have hbuilt := ModuleTable.isBuilt_of_build hbuild
  refine ⟨hbuilt.slots_eq, ?_, ?_, ?_⟩
  · intro id body
    rw [← hbuilt.names.exists_mem_iff]
    simp
  · intro module hmodule hfunction
    obtain ⟨renamed, hrenamed, hprocessed, -⟩ := (hbuilt.finished module hmodule).renamed
    obtain ⟨-, tag, fields, body, hnode, hbody⟩ := Value.isFunctionModule_cases hfunction
    rw [hnode] at hfunction hrenamed hprocessed
    obtain ⟨params, roles, hparams, hroles, happly, hrename⟩ :=
      renameModule_eq_ok hfunction hbody hrenamed
    exact ⟨tag, fields, body, params, roles, _, hnode, hbody, hparams, hroles,
      hprocessed.trans happly, hbuilt.linked hrename⟩
  · intro hapart
    exact ⟨ModuleTable.sources_of_apart hbuilt.nodup_id hapart,
      fun _ => ModuleTable.lookup_sources_of_apart hbuilt.nodup_id hapart⟩

/-- The module function `function (e, t, n) { callee(first); callee(second); }`. -/
def linkingModule (callee : String) (first second : Value) : Value :=
  Build.function [Build.name "e", Build.name "t", Build.name "n"]
    [Build.perform (Build.call (Build.name callee) [first]),
      Build.perform (Build.call (Build.name callee) [second])]

/-- The bundle has the modules 0 and 2.  The first call in module 0 leads to module 2, the
second is for the empty slot 1 and keeps its argument. -/
theorem build_links_forward :
    ∃ table roles body processed,
      ModuleTable.build (fun _ => .ok (.text ";")) (Build.bundle
        [linkingModule "n" (Build.number 2) (Build.number 1), .null, Build.exporting "Foo"]) =
          .ok table ∧
      table.modules.map (fun module => (module.id, module.processed)) =
        [(0, linkingModule "require" (requirePath (.text "Foo")) (Build.number 1)),
          (2, Build.function [Build.name "e"] [Build.perform (Build.assign
            (Build.member (Build.name "module") "exports") (Build.text "Foo"))])] ∧
      Linked table roles body processed ∧
      table.sources.lookup (.text "Foo") = some (.text ";") := by
  have hresult : (ModuleTable.build (fun _ => .ok (.text ";")) (Build.bundle
      [linkingModule "n" (Build.number 2) (Build.number 1), .null,
        Build.exporting "Foo"])).toOption.map (fun table => table.modules.map fun module =>
          ((module.id, module.processed), (module.body.isFunctionModule, module.name),
            module.source)) =
      some [((0, linkingModule "require" (requirePath (.text "Foo")) (Build.number 1)),
          (true, .text "module-0"), .text ";\n;"),
        ((2, Build.function [Build.name "e"] [Build.perform (Build.assign
            (Build.member (Build.name "module") "exports") (Build.text "Foo"))]),
          (true, .text "Foo"), .text ";")] := by
    decide +kernel
  obtain ⟨table, hbuild, hmap⟩ := Attempt.of_toOption_map hresult
  obtain ⟨first, rest, hmodules, hfirst, hrest⟩ := List.map_eq_cons_iff.1 hmap
  obtain ⟨second, none, rfl, hsecond, hnone⟩ := List.map_eq_cons_iff.1 hrest
  obtain rfl := List.map_eq_nil_iff.1 hnone
  simp only [Prod.mk.injEq] at hfirst hsecond
  have hlinks := build_links hbuild
  have hfirstMem : first ∈ table.modules := by simp [hmodules]
  have hsecondMem : second ∈ table.modules := by simp [hmodules]
  obtain ⟨tag, fields, body, params, roles, processed, -, -, -, -, -, hlinked⟩ :=
    hlinks.2.2.1 first hfirstMem hfirst.2.1.1
  have hsources := hlinks.2.2.2 (by
    simp only [hmodules, List.forall_mem_cons, List.not_mem_nil, false_imp_iff, implies_true,
      and_true, hfirst, hsecond]
    decide +kernel)
  have hlookup := hsources.2 second hsecondMem (by
    rw [hsecond.2.1.2]
    rfl)
  rw [hsecond.2.1.2, hsecond.2.2] at hlookup
  refine ⟨table, roles, body, processed, hbuild, ?_, hlinked, hlookup⟩
  rw [hmodules, List.map_cons, List.map_singleton, hfirst.1.1, hfirst.1.2, hsecond.1.1, hsecond.1.2]

end Debundle
