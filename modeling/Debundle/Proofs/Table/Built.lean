import Debundle.Proofs.Table.Naming

/-!
# Built tables

A table that was built holds the elements of the array, has named those that are not
empty, and has renamed and rendered each of them with the names of all.
-/

namespace Debundle

open Attempt

variable {render : Renderer} {wrapper : Value} {table : ModuleTable} {registry : Registry}
  {named : NamedModule} {module : Module}

/-- The module was renamed and rendered with the names of a registry. -/
structure Module.IsFinished (registry : Registry) (render : Renderer) (module : Module) :
    Prop where
  renamed : ∃ renamed, renameModule registry module.body = .ok renamed ∧
    module.processed = renamed.module.apply module.body ∧ module.tally = renamed.tally
  rendered_eq : module.rendered = renderModule render module.processed

theorem Module.ofNamed_eq_ok (hmodule : Module.ofNamed registry render named = .ok module) :
    module.IsFinished registry render ∧ module.toNamedModule = named := by
  simp only [Module.ofNamed, bind_eq_ok_iff, pure_eq_ok_iff] at hmodule
  obtain ⟨renamed, hrenamed, rfl⟩ := hmodule
  exact ⟨⟨⟨renamed, hrenamed, rfl, rfl⟩, rfl⟩, rfl⟩

/-- The table was built from the modules of a wrapper. -/
structure ModuleTable.IsBuilt (render : Renderer) (wrapper : Value) (table : ModuleTable) :
    Prop where
  slots_eq : (wrapper.moduleArray >>= Value.elements) = .ok table.slots
  names : NamesSlots table.slots table.registry (table.modules.map Module.toNamedModule)
  finished : ∀ module ∈ table.modules, module.IsFinished table.registry render

theorem ModuleTable.isBuilt_of_build (hbuild : ModuleTable.build render wrapper = .ok table) :
    table.IsBuilt render wrapper := by
  simp only [ModuleTable.build, bind_eq_ok_iff, pure_eq_ok_iff] at hbuild
  obtain ⟨array, harray, slots, hslots, ⟨registry, named⟩, hnamed, modules, hmodules, rfl⟩ := hbuild
  rw [mapM_eq_ok_iff] at hmodules
  have hboth : List.Forall₂ (fun module named => module.IsFinished registry render ∧
      module.toNamedModule = named) modules named :=
    hmodules.flip.imp fun _ _ hmodule => Module.ofNamed_eq_ok hmodule
  rw [List.forall₂_and_left] at hboth
  have hmap : modules.map Module.toNamedModule = named := by
    rw [← List.forall₂_eq_eq_eq, List.forall₂_map_left_iff]
    exact hboth.2
  refine ⟨bind_eq_ok_iff.2 ⟨array, harray, hslots⟩, ?_, hboth.1⟩
  rw [hmap]
  exact NamingRun.of_ok hnamed

end Debundle
