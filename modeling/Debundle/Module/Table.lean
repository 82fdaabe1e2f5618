import Debundle.Module.Rename
import Debundle.Naming.Candidate
import Debundle.Tree.Join
import Debundle.Wrapper

/-!
# The modules of a bundle

All modules are named first, so that a `require` call can be pointed at a module that
comes later.  Then each module is renamed and rendered on its own.  A module that
cannot be rendered keeps the cause, and does not keep the others from being rendered.
-/

namespace Debundle

/-- Turns a tree into source text.  A tree that is nothing but a name is turned into that
name, which need not be a text. -/
abbrev Renderer := Value → Except Fault Value

/-- The outcome of renaming a module. -/
structure Renamed where
  module : Edit Value
  body : Edit Value
  /-- What was done; there is none for a module that is no function. -/
  tally : Option Tally

/-- Renames the parameters of a module function.  Other modules are kept. -/
def renameModule (registry : Registry) (module : Value) : Except Fault Renamed := do
  match module, module.isFunctionModule, module.lookup "body" with
  | .node tag fields, true, some body =>
    let params ← module.listAt "params"
    let roles ← Roles.ofParams (params.map Part.value)
    let (edit, tally) ← body.rename registry roles
    return {
      module := .changed (.node tag (Fields.set fields "body" (edit.apply body)))
      body := edit
      tally := some tally }
  | _, _, _ => return { module := .kept, body := .kept, tally := none }

/-- The source text of a module without the function around it. -/
def renderModule (render : Renderer) (module : Value) : Except Fault Value := do
  match module.isFunctionModule, module.lookup "body" with
  | true, some body =>
    if body.kind = .blockStatement then
      let pieces ← (← body.listAt "body").mapM fun statement => render statement.value
      return .text (← joined "\n" pieces)
    else render body
  | _, _ => render module

/-- A module and the name it was given. -/
structure NamedModule where
  id : Nat
  body : Value
  /-- The name that the module proposes, empty if there is none. -/
  candidate : Value
  name : Value

/-- Names the modules in the slots of a bundle in order, and skips empty slots. -/
def nameModules : Registry → List (Value × Nat) → Except Fault (Registry × List NamedModule)
  | registry, [] => .ok (registry, [])
  | registry, (.null, _) :: rest => nameModules registry rest
  | registry, (body, id) :: rest => do
    let candidate ← body.primaryExport
    let name := registry.nameFor id candidate
    let (final, named) ← nameModules (registry.claim id candidate) rest
    return (final, { id, body, candidate, name } :: named)

/-- A module that was renamed and rendered. -/
structure Module extends NamedModule where
  processed : Value
  tally : Option Tally
  /-- The source text, or why there is none. -/
  rendered : Except Fault Value

namespace Module

/-- The source text, empty if the module could not be rendered. -/
def source (module : Module) : Value :=
  match module.rendered with
  | .ok source => source
  | .error _ => .text ""

def fault? (module : Module) : Option Fault :=
  match module.rendered with
  | .ok _ => none
  | .error fault => some fault

/-- Renames and renders a named module. -/
def ofNamed (registry : Registry) (render : Renderer) (named : NamedModule) :
    Except Fault Module := do
  let renamed ← renameModule registry named.body
  let processed := renamed.module.apply named.body
  return {
    toNamedModule := named
    processed
    tally := renamed.tally
    rendered := renderModule render processed }

end Module

/-- All modules of a bundle. -/
structure ModuleTable where
  /-- The slots of the bundle, empty ones included. -/
  slots : List Value
  registry : Registry
  modules : List Module

namespace ModuleTable

/-- The table of the modules in a wrapper call, or in its array. -/
def build (render : Renderer) (wrapper : Value) : Except Fault ModuleTable := do
  let slots ← (← wrapper.moduleArray).elements
  let (registry, named) ← nameModules {} slots.zipIdx
  let modules ← named.mapM (Module.ofNamed registry render)
  return { slots, registry, modules }

/-- The source texts by module name.  Of modules of one name the last counts. -/
def sources (table : ModuleTable) : List (Value × Value) :=
  table.modules.foldl (fun found module => Entries.put found module.name module.source) []

/-- The modules whose name a module before them has. -/
def reusing (table : ModuleTable) : List Module :=
  go [] table.modules
where
  go (seen : List Value) : List Module → List Module
    | [] => []
    | module :: rest =>
      if seen.contains module.name then module :: go seen rest
      else go (module.name :: seen) rest

end ModuleTable

end Debundle
