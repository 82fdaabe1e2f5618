import Debundle.Bundle
import Debundle.Format
import Debundle.Module.Table
import Debundle.Parser
import Debundle.Report.Basic
import Debundle.Script.Print
import Debundle.Session

/-!
# Unpacking a bundle

A bundle is parsed, its wrapper is looked for, and each module is renamed, rendered,
formatted and written to its own file.  The report says what became of each module.
-/

namespace Debundle

/-- The parts of a run that the library does not bring. -/
structure Tools where
  parser : Parser
  formatter : Formatter

structure UnpackOptions where
  /-- The directory that the module files go to. -/
  directory : Path
  formats : Bool := true
  /-- The number of spaces per level, if one is known. -/
  indent : Option Int := some 2
  /-- Whether nothing is to be written. -/
  listsOnly : Bool := false
  /-- A file that gets one line per module. -/
  tracePath : Option Path := none

namespace Module

def error? (module : Module) : Option String :=
  module.fault?.map Fault.summary

/-- What is told about rendering a module. -/
def events (module : Module) : List Event :=
  (module.tally.elim [] Tally.unresolved).map .unresolved
    ++ (module.fault?.map fun fault =>
      Event.notRendered module.id module.name fault.message).toList
    ++ [.processed module.id module.name module.tally]

/-- What is told about naming a module. -/
def namingEvents (module : Module) : List Event :=
  if !module.candidate.isTruthy then [.noExport module.id module.name]
  else if module.name == module.candidate then []
  else [.nameTaken module.id module.candidate module.name]

/-- The line about a module in a trace. -/
def traceLine (module : Module) : String :=
  "module " ++ toString module.id ++ " name=" ++ module.name.display
    ++ " function=" ++ (if module.body.isFunctionModule then "True" else "False")
    ++ " stats=" ++ Tally.shown module.tally
    ++ " error=" ++ module.error?.getD "None" ++ "\n"

end Module

namespace ModuleTable

/-- What is told about the slots of a bundle. -/
def slotEvents (table : ModuleTable) : List Event :=
  table.slots.zipIdx.flatMap fun (slot, id) =>
    if slot.isNull then [.emptySlot id]
    else (table.modules.filter fun module => module.id == id).flatMap Module.namingEvents

/-- What is told about building a table. -/
def events (table : ModuleTable) : List Event :=
  table.slotEvents ++ [.extracting table.modules.length]
    ++ table.modules.flatMap Module.events

/-- Whether no later module has this module's name. -/
def isLastOfName (table : ModuleTable) (module : Module) : Bool :=
  table.modules.all fun other => !(module.id < other.id && other.name == module.name)

end ModuleTable

/-- Parses a bundle, and renames and renders its modules. -/
def extractModules (parser : Parser) (source : String) : Run ModuleTable := do
  match parser.parse source false with
  | .error message => throw (.notParsed message)
  | .ok tree =>
    Run.tell [.parsed source.length tree.statementCount]
    match ← Run.ofExcept tree.findWrapper? with
    | none => throw .noWrapper
    | some wrapper =>
      Run.tell [.wrapperFound (← Run.ofExcept wrapper.moduleCount)]
      let style : Style := { source := some source }
      let table ← Run.ofExcept (ModuleTable.build (Value.script style) wrapper)
      Run.tell table.events
      return table

/-- Writes the trace of a run. -/
def writeTrace (path : Path) (table : ModuleTable) : Run Unit :=
  Run.onDisk do
    Disk.makeDirectories path.parent
    let place ← Disk.openFile path
    Disk.writeOpened place (String.join (table.modules.map Module.traceLine))

/-- The content of the file of a module. -/
def fileContent (tools : Tools) (options : UnpackOptions) (source : Value) :
    Except Fault Content :=
  if options.formats then tools.formatter.moduleContent options.indent source
  else source.asEnding.map fun text => endLine (.ofText text)

/-- What is told about the content of the file of a module. -/
def formatEvents (tools : Tools) (options : UnpackOptions) (source : Value) : List Event :=
  match tools.formatter.format options.indent source with
  | .ok formatted =>
    if options.formats && !formatted.isChanged then [.formatUnchanged] else []
  | .error _ => []

/-- The contents of the files of modules, by module name. -/
def fileContents (tools : Tools) (options : UnpackOptions) (sources : List (Value × Value)) :
    Except Fault (List (Value × Content)) :=
  sources.mapM fun (name, source) => do return (name, ← fileContent tools options source)

/-- Writes module files in order. -/
def writeModules (directory : Path) : List (Value × Content) → Run (List WriteResult)
  | [] => return []
  | (name, content) :: rest => do
    let result ← Run.onDisk (writeModule directory name content)
    Run.tell [result.event content]
    return result :: (← writeModules directory rest)

/-- What there is after a run. -/
structure Unpacked where
  table : ModuleTable
  /-- The contents of the module files by module name. -/
  files : List (Value × Content)
  writes : List WriteResult
  report : Report

def Unpacked.isSuccess (unpacked : Unpacked) : Bool :=
  unpacked.writes.all WriteResult.isSuccess

namespace Report

/-- The entry of a module.  Of modules of one name only the last has the file. -/
def entryOf (table : ModuleTable) (writes : List WriteResult) (module : Module) :
    ModuleReport :=
  let tally := module.tally.getD {}
  let write? :=
    if table.isLastOfName module then
      writes.find? fun write => write.name == module.name
    else none
  { id := module.id
    name := module.name
    identifiersRenamed := tally.renamed
    requiresRewritten := tally.rewritten
    requiresUnresolved := tally.unresolved.length
    path := write?.map fun write => write.path.toText
    written := write?.any WriteResult.isSuccess
    error := module.error? }

/-- A warning if modules lost their files to later ones. -/
def sharingWarnings (modules files : Nat) : List String :=
  if files < modules then
    [toString (modules - files) ++ " module(s) share a name with a later module"]
  else []

/-- A warning if a module could not be rendered. -/
def renderWarnings (module : Module) : List String :=
  (module.error?.map fun error =>
    "module " ++ toString module.id ++ " (" ++ module.name.display ++ ") rendered empty: "
      ++ error).toList

/-- A line if a module could not be written. -/
def writeErrors (write : WriteResult) : List String :=
  (write.error?.map fun error => write.path.toText ++ ": " ++ error).toList

/-- The report on a run that got as far as writing the modules. -/
def ofRun (origin : String) (directory : Path) (table : ModuleTable) (files : Nat)
    (writes : List WriteResult) : Report where
  origin
  wrapperFound := true
  moduleCount := table.modules.length
  outputDirectory := some directory.toText
  modules := table.modules.map (entryOf table writes)
  warnings :=
    sharingWarnings table.modules.length files ++ table.modules.flatMap renderWarnings
  errors := writes.flatMap writeErrors

end Report

/-- Formats the modules of a table and writes their files. -/
def writeTable (tools : Tools) (options : UnpackOptions) (origin : String)
    (table : ModuleTable) : Run Unpacked := do
  Run.tell (table.reusing.map fun module => .nameReused module.id module.name)
  Run.tell (table.sources.flatMap fun (_, source) => formatEvents tools options source)
  let files ← Run.ofExcept (fileContents tools options table.sources)
  let writes ← if options.listsOnly then pure [] else writeModules options.directory files
  Run.tell [.unpacked table.modules.length origin]
  let report := Report.ofRun origin options.directory table files.length writes
  return { table, files, writes, report }

/-- Unpacks a bundle. -/
def unpack (tools : Tools) (options : UnpackOptions) (bundle : Bundle) : Run Unpacked := do
  let table ← extractModules tools.parser bundle.text
  if let some path := options.tracePath then writeTrace path table
  writeTable tools options bundle.origin table

end Debundle
