import Debundle.Proofs.Naming.Totality
import Debundle.Proofs.Rename.ModuleFunction
import Debundle.Proofs.Table.Built

/-!
# Building returns

For every well-formed bundle and every renderer a table is built, with one module for
each slot that is not empty.  A module that cannot be rendered keeps the cause.  There is
one exception: a literal with too many digits, anywhere in the bundle, may keep the whole
table from being built.
-/

namespace Debundle

open Attempt Kind

variable {allowed : Fault → Prop} {wrapper slot module : Value} {render : Renderer}

namespace Value

/-- The slots of the array that a wrapper is called with. -/
def slotsAt : Position :=
  [.field "arguments", .item 0, .field "elements"]

/-- A wrapper is called with an array. -/
theorem exists_array_of_isWrapper {tag : String} {fields : Fields} {items : List Value}
    (harguments : Fields.get? fields "arguments" = some (.array items))
    (hcall : (Value.node tag fields).isWrapper = .ok true) :
    ∃ array rest, items = array :: rest ∧ array.kind = .arrayExpression := by
  simp only [isWrapper] at hcall
  split at hcall
  · cases hcall
  split at hcall
  · cases hcall
  split at hcall
  · cases hcall
  simp only [bind_eq_ok_iff] at hcall
  obtain ⟨paramCount, -, hcall⟩ := hcall
  split at hcall
  · cases hcall
  simp only [bind_eq_ok_iff] at hcall
  obtain ⟨argumentCount, -, hcall⟩ := hcall
  split at hcall
  · cases hcall
  simp only [bind_eq_ok_iff, pure_eq_ok_iff, beq_iff_eq] at hcall
  obtain ⟨arguments, hpart, array, hitem, hkind⟩ := hcall
  have hvalue := lookup_of_part? (require_eq_ok_iff.1 hpart)
  rw [lookup_node, harguments, Option.some.injEq] at hvalue
  rw [← hvalue] at hitem
  cases items with
  | nil => cases hitem
  | cons _ rest =>
    cases hitem
    exact ⟨array, rest, rfl, hkind⟩

/-- A well-formed wrapper has slots, each with an expression or nothing. -/
theorem exists_slots (hfills : wrapper.fills (.one [.callExpression]) = true)
    (hcall : wrapper.isWrapper = .ok true) :
    ∃ slots, wrapper.at? slotsAt = some (.array slots) ∧
      (wrapper.moduleArray >>= elements) = .ok slots ∧
      ∀ slot ∈ slots, slot.fills (.optional (.spreadElement :: expressions)) = true := by
  obtain ⟨tag, fields, rfl, hkind⟩ := exists_node_of_fills hfills
  rw [List.mem_singleton] at hkind
  obtain ⟨arguments, hget, harguments⟩ := exists_field hfills hkind
    (show Kind.slot .callExpression "arguments" = .many (.spreadElement :: expressions)
      from rfl) rfl
  obtain ⟨items, rfl, hitems⟩ := exists_items_of_fills harguments rfl (by simp)
  obtain ⟨array, rest, rfl, harray⟩ := exists_array_of_isWrapper hget hcall
  obtain ⟨arrayTag, arrayFields, rfl, -⟩ := exists_node_of_fills (hitems array List.mem_cons_self)
  obtain ⟨elements, helements, hholey⟩ :=
    exists_field (hitems _ List.mem_cons_self) harray
      (show Kind.slot .arrayExpression "elements" = .holey (.spreadElement :: expressions)
        from rfl) rfl
  obtain ⟨slots, rfl, hslots⟩ := exists_items_of_fills hholey rfl (by simp)
  refine ⟨slots, ?_, ?_, hslots⟩
  · simp [slotsAt, hget, helements]
  · obtain ⟨part, hpart, hvalue⟩ := exists_part (lookup_node tag fields "arguments" ▸ hget)
    have hnot : (Value.node tag fields).kind ≠ .arrayExpression := by
      rw [kind, hkind]
      decide
    have harray : (Value.node tag fields).moduleArray = .ok (.array slots) := by
      rw [moduleArray, if_neg hnot]
      refine bind_eq_ok_iff.2 ⟨part, require_eq_ok_iff.2 hpart, ?_⟩
      rw [hvalue]
      refine bind_eq_ok_iff.2 ⟨.node arrayTag arrayFields, rfl, ?_⟩
      refine bind_eq_ok_iff.2 ⟨(), rfl, ?_⟩
      simp only [pure_bind, lookup_node, helements]
      cases slots <;> rfl
    exact bind_eq_ok_iff.2 ⟨.array slots, harray, rfl⟩

/-- A function in a slot is a module function. -/
theorem isModuleFunction_of_fills {kinds : List Kind}
    (hfills : slot.fills (.optional kinds) = true) (hfunction : slot.isFunctionModule = true) :
    slot.IsModuleFunction := by
  obtain ⟨hliteral, tag, fields, body, rfl, -⟩ := isFunctionModule_cases hfunction
  have hnode := fills_node_iff.1 hfills
  rw [isFunctionLiteral, Bool.or_eq_true, beq_iff_eq, beq_iff_eq] at hliteral
  exact fills_node_iff.2 ⟨List.contains_iff_mem.2 (List.mem_pair.2 hliteral), hnode.2⟩

end Value

theorem renameModule_returnsOr {kinds : List Kind}
    (hfills : module.fills (.optional kinds) = true)
    (hallows : module.Allows moduleIndex allowed) (registry : Registry) :
    ReturnsOr allowed (renameModule registry module) := by
  cases hfunction : module.isFunctionModule with
  | true =>
    obtain ⟨tag, fields, body, params, hparts⟩ :=
      (Value.isModuleFunction_of_fills hfills hfunction).exists_parts
    have hchild : module.child? (.field "body") = some body := by
      rw [hparts.node_eq]
      exact hparts.body_eq
    exact hparts.renameModule_returnsOr registry fun roles _ => (hallows.child hchild).calls roles
  | false =>
    simp only [renameModule, hfunction]
    exact .ok _

theorem Module.ofNamed_returnsOr {named : NamedModule} {kinds : List Kind}
    (hfills : named.body.fills (.optional kinds) = true)
    (hallows : named.body.Allows moduleIndex allowed) (registry : Registry) (render : Renderer) :
    ReturnsOr allowed (Module.ofNamed registry render named) := by
  apply (renameModule_returnsOr hfills hallows registry).bind
  intro renamed _
  exact .ok _

/-- A table can be built from slots that hold expressions. -/
theorem ModuleTable.build_returnsOr {slots : List Value} {kinds : List Kind}
    (hslots : (wrapper.moduleArray >>= Value.elements) = .ok slots)
    (hfills : ∀ slot ∈ slots, slot.fills (.optional kinds) = true)
    (hpaths : ∀ slot ∈ slots, slot.Allows Value.literalStep allowed)
    (hindices : ∀ slot ∈ slots, slot.Allows moduleIndex allowed) (render : Renderer) :
    ReturnsOr allowed (ModuleTable.build render wrapper) := by
  obtain ⟨array, harray, helements⟩ := bind_eq_ok_iff.1 hslots
  have hnames : ∀ slot ∈ slots.zipIdx, ReturnsOr allowed slot.1.primaryExport := by
    intro slot hslot
    have hmem := List.fst_mem_of_mem_zipIdx hslot
    exact Value.primaryExport_returns (hfills slot.1 hmem) (hpaths slot.1 hmem)
  rw [ModuleTable.build, harray]
  apply ReturnsOr.bind (.ok array)
  intro found hfound
  cases hfound
  rw [helements]
  apply ReturnsOr.bind (.ok slots)
  intro found hfound
  cases hfound
  apply (nameModules_returns hnames {}).bind
  intro result hresult
  obtain ⟨registry, named⟩ := result
  have hbodies : ∀ module ∈ named, module.body ∈ slots := by
    intro module hmodule
    have hrun : NamesSlots slots registry named := NamingRun.of_ok hresult
    have hslot := (hrun.exists_mem_iff).1 ⟨module, hmodule, rfl, rfl⟩
    exact List.mem_of_getElem? hslot.1
  have hmodules : ReturnsOr allowed (named.mapM (Module.ofNamed registry render)) := by
    apply ReturnsOr.mapM
    intro module hmodule
    exact Module.ofNamed_returnsOr (hfills _ (hbodies module hmodule))
      (hindices _ (hbodies module hmodule)) registry render
  apply hmodules.bind
  intro modules _
  exact .ok _

/-- The table has a module for each slot that is not empty, in the order of the slots.  A
module that the renderer refuses keeps the cause and has no source. -/
structure ModuleTable.IsComplete (render : Renderer) (slots : List Value) (table : ModuleTable) :
    Prop where
  modules_eq : (table.modules.map fun module => (module.body, module.id)) =
    slots.zipIdx.filter fun slot => !slot.1.isNull
  refused : ∀ module ∈ table.modules, ∀ fault,
    renderModule render module.processed = .error fault →
      module.fault? = some fault ∧ module.source = .text ""
  rendered : ∀ module ∈ table.modules, ∀ source,
    renderModule render module.processed = .ok source →
      module.fault? = none ∧ module.source = source

theorem ModuleTable.IsBuilt.isComplete {table : ModuleTable}
    (hbuilt : table.IsBuilt render wrapper) : table.IsComplete render table.slots where
  modules_eq := by
    rw [← NamingRun.map_slot hbuilt.names, List.map_map]
    rfl
  refused := by
    intro module hmodule fault hfault
    rw [Module.fault?, Module.source, (hbuilt.finished module hmodule).rendered_eq, hfault]
    exact ⟨rfl, rfl⟩
  rendered := by
    intro module hmodule source hsource
    rw [Module.fault?, Module.source, (hbuilt.finished module hmodule).rendered_eq, hsource]
    exact ⟨rfl, rfl⟩

/-- The fault of a literal in the wrapper that has too many digits to be read or written. -/
structure Fault.IsAtLimit (wrapper : Value) (fault : Fault) : Prop where
  fault_eq : (∃ count, numeralLimit < count ∧ fault = .tooManyDigits count) ∨
    fault = .integerTooLong
  literal : ∃ position literal, wrapper.at? position = some literal ∧ literal.kind = .literal ∧
    literal.constant.isOverlong = true

theorem Value.allows_literalStep (wrapper : Value) :
    wrapper.Allows literalStep (Fault.IsAtLimit wrapper) := by
  intro position literal fault hat hkind herror
  have hlong := literalStep_eq_error herror
  exact ⟨.inr hlong.2, position, literal, hat, hkind, hlong.1⟩

theorem Value.allows_moduleIndex (wrapper : Value) :
    wrapper.Allows moduleIndex (Fault.IsAtLimit wrapper) := by
  intro position literal fault hat hkind herror
  obtain ⟨numeral, hnumeral, hdigits, hlong, rfl⟩ := moduleIndex_eq_error herror
  refine ⟨.inl ⟨_, hlong, rfl⟩, position, literal, hat, hkind, ?_⟩
  rw [hnumeral, isOverlong, hdigits, decide_eq_true hlong]
  rfl

/-- For every well-formed wrapper and every renderer a complete table is built, unless a
literal in the wrapper has too many digits to be read or written. -/
theorem build_returns_unless_overlong (hfills : wrapper.fills (.one [.callExpression]) = true)
    (hcall : wrapper.isWrapper = .ok true) (render : Renderer) :
    (∃ slots table, wrapper.at? Value.slotsAt = some (.array slots) ∧
      ModuleTable.build render wrapper = .ok table ∧ table.IsComplete render slots) ∨
      ∃ fault, fault.IsAtLimit wrapper ∧ ModuleTable.build render wrapper = .error fault := by
  obtain ⟨slots, hat, hslots, hexpressions⟩ := Value.exists_slots hfills hcall
  have hplace : ∀ slot ∈ slots, ∃ position, wrapper.at? position = some slot := by
    intro slot hslot
    obtain ⟨index, hindex⟩ := List.mem_iff_getElem?.1 hslot
    refine ⟨Value.slotsAt ++ [.item index], ?_⟩
    rw [Value.at?_append, hat]
    simpa using hindex
  have hbuild : ReturnsOr (Fault.IsAtLimit wrapper) (ModuleTable.build render wrapper) := by
    apply ModuleTable.build_returnsOr hslots hexpressions
    · intro slot hslot
      obtain ⟨position, hposition⟩ := hplace slot hslot
      exact wrapper.allows_literalStep.at hposition
    · intro slot hslot
      obtain ⟨position, hposition⟩ := hplace slot hslot
      exact wrapper.allows_moduleIndex.at hposition
  rcases hbuild with ⟨table, htable⟩ | herror
  · have hbuilt := ModuleTable.isBuilt_of_build htable
    cases hslots.symm.trans hbuilt.slots_eq
    exact .inl ⟨table.slots, table, hat, htable, hbuilt.isComplete⟩
  · exact .inr herror

/-- Module 0 is refused by the renderer, slot 1 is empty, and module 2 has nothing that the
renderer could refuse. -/
theorem build_returns_unless_overlong_refusing :
    ∃ slots table, (Build.bundle [Build.exporting "Foo", .null, Build.function [] []]).fills
        (.one [.callExpression]) = true ∧
      (Build.bundle [Build.exporting "Foo", .null, Build.function [] []]).isWrapper = .ok true ∧
      ModuleTable.build (fun _ => .error (.refused "E" "no"))
        (Build.bundle [Build.exporting "Foo", .null, Build.function [] []]) = .ok table ∧
      table.modules.map (fun module => (module.id, module.fault?)) =
        [(0, some (.refused "E" "no")), (2, none)] ∧
      table.IsComplete (fun _ => .error (.refused "E" "no")) slots := by
  have hresult : (ModuleTable.build (fun _ => .error (.refused "E" "no"))
      (Build.bundle [Build.exporting "Foo", .null, Build.function [] []])).toOption.map
        (fun table => table.modules.map fun module => (module.id, module.fault?)) =
      some [(0, some (.refused "E" "no")), (2, none)] := by
    decide +kernel
  obtain ⟨table, hbuild, hmodules⟩ := of_toOption_map hresult
  have hfills : (Build.bundle [Build.exporting "Foo", .null, Build.function [] []]).fills
      (.one [.callExpression]) = true := rfl
  have hcall : (Build.bundle [Build.exporting "Foo", .null, Build.function [] []]).isWrapper =
      .ok true := rfl
  rcases build_returns_unless_overlong hfills hcall (fun _ => .error (.refused "E" "no")) with
    ⟨slots, other, -, hother, hcomplete⟩ | ⟨fault, -, herror⟩
  · cases hbuild.symm.trans hother
    exact ⟨slots, table, hfills, hcall, hbuild, hmodules, hcomplete⟩
  · cases hbuild.symm.trans herror

/-- The module function `function (e, t, n) { n("content"); }`. -/
def requiringText (content : String) : Value :=
  Build.function [Build.name "e", Build.name "t", Build.name "n"]
    [Build.perform (Build.call (Build.name "n") [Build.text content])]

/-- The error of an argument is handed on from the call to the statement, the block and the
module function. -/
theorem renameModule_requiringText_eq_error {content : String} {fault : Fault}
    (herror : moduleIndex (.text content) = .error fault) (registry : Registry) :
    renameModule registry (requiringText content) = .error fault := by
  let roles : Roles := ⟨[(.text "e", .module), (.text "t", .exports), (.text "n", .require)]⟩
  let call := Build.call (Build.name "n") [Build.text content]
  have hresolve : registry.resolve (.text content) = .error fault := by
    rw [Registry.resolve, herror]
    rfl
  have hcall : call.rename registry roles = .error fault := by
    change ((registry.resolve (.text content) >>= _) >>= _) = _
    rw [hresolve]
    rfl
  have hstatement : (Build.perform call).rename registry roles = .error fault := by
    change ((call.rename registry roles >>= _) >>= _) = _
    rw [hcall]
    rfl
  have hstatements : (Value.array [Build.perform call]).rename registry roles = .error fault := by
    change (((Build.perform call).rename registry roles >>= _) >>= _) = _
    rw [hstatement]
    rfl
  change (((Value.array [Build.perform call]).rename registry roles >>= _) >>= _) >>= _ = _
  rw [hstatements]
  rfl

/-- The module proposes no name of its own. -/
theorem nameModules_requiringText (content : String) :
    nameModules {} [(requiringText content, 0)] =
      .ok ({ names := [(0, .text "module-0")] },
        [⟨0, requiringText content, .text "", .text "module-0"⟩]) :=
  rfl

theorem build_requiringText_eq_error {content : String} {fault : Fault}
    (herror : moduleIndex (.text content) = .error fault) (render : Renderer) :
    ModuleTable.build render (Build.bundle [requiringText content]) = .error fault := by
  have hslots : (Build.bundle [requiringText content]).moduleArray =
      .ok (.array [requiringText content]) := rfl
  have helements : (Value.array [requiringText content]).elements =
      .ok [requiringText content] := rfl
  simp only [ModuleTable.build, hslots, helements, ok_bind, List.zipIdx_cons,
    List.zipIdx_nil, nameModules_requiringText, List.mapM_cons, Module.ofNamed,
    renameModule_requiringText_eq_error herror]
  rfl

theorem moduleIndex_of_long {count : Nat} (hlong : numeralLimit < count) :
    moduleIndex (.text (String.ofList (List.replicate count '1'))) =
      .error (.tooManyDigits count) := by
  have hsome : (List.replicate count '1').isEmpty = false := by
    cases count with
    | zero => cases hlong
    | succ => rfl
  have hdigits : (List.replicate count '1').all Char.isDigit = true := by
    rw [List.all_replicate]
    split <;> rfl
  simp only [moduleIndex, String.toList_ofList, hsome, hdigits, List.length_replicate, if_pos hlong]
  rfl

/-- One numeral of 4301 digits keeps the whole table from being built, whatever the
renderer. -/
theorem build_fails_on_long_numeral :
    ∃ wrapper, wrapper.fills (.one [.callExpression]) = true ∧ wrapper.isWrapper = .ok true ∧
      ∀ render, ModuleTable.build render wrapper = .error (.tooManyDigits 4301) := by
  have hlong : numeralLimit < 4301 := by decide
  refine ⟨Build.bundle [requiringText (String.ofList (List.replicate 4301 '1'))], rfl, rfl, ?_⟩
  intro render
  exact build_requiringText_eq_error (moduleIndex_of_long hlong) render

end Debundle
