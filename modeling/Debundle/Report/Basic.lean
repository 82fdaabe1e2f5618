import Debundle.Report.Document
import Debundle.Tree.Join

/-!
# Reports

What a run did: for the bundle as a whole, and for each of its modules.
-/

namespace Debundle

structure ModuleReport where
  id : Int
  name : Value
  identifiersRenamed : Int := 0
  requiresRewritten : Int := 0
  requiresUnresolved : Int := 0
  /-- The file of the module, if it was to be written. -/
  path : Option String := none
  written : Bool := false
  error : Option String := none

structure Report where
  origin : String := ""
  wrapperFound : Bool := false
  moduleCount : Int := 0
  outputDirectory : Option String := none
  modules : List ModuleReport := []
  warnings : List String := []
  errors : List String := []

namespace ModuleReport

def hasFailed (module : ModuleReport) : Bool :=
  module.error.any fun error => !error.isEmpty

def toDocument (module : ModuleReport) : Document :=
  .object [("id", .int module.id), ("name", .ofValue module.name),
    ("identifiers_renamed", .int module.identifiersRenamed),
    ("requires_rewritten", .int module.requiresRewritten),
    ("requires_unresolved", .int module.requiresUnresolved),
    ("path", module.path.elim .null .text), ("written", .bool module.written),
    ("error", module.error.elim .null .text)]

end ModuleReport

namespace Report

def failedModules (report : Report) : List ModuleReport :=
  report.modules.filter ModuleReport.hasFailed

/-- The sum of a count over all modules. -/
def total (report : Report) (count : ModuleReport → Int) : Int :=
  report.modules.foldr (fun module sum => count module + sum) 0

/-- A heading with the entries of a list, nothing if the list is empty. -/
def listed (heading : String) (entries : List String) : List String :=
  if entries.isEmpty then [] else heading :: entries.map fun entry => "  - " ++ entry

/-- The line about the modules that failed, nothing if there are none. -/
def failedLines (report : Report) : Except Fault (List String) := do
  if report.failedModules.isEmpty then return []
  return ["Failed modules: " ++ (← joined ", " (report.failedModules.map ModuleReport.name))]

/-- The report as people read it. -/
def toText (report : Report) : Except Fault String := do
  let rewritten := report.total ModuleReport.requiresRewritten
  let unresolved := report.total ModuleReport.requiresUnresolved
  let directory := report.outputDirectory.getD ""
  return "\n".intercalate
    (["Input: " ++ (if report.origin.isEmpty then "<unknown>" else report.origin),
      "Webpack wrapper: " ++ (if report.wrapperFound then "found" else "not found"),
      "Modules: " ++ toString report.moduleCount]
    ++ (if directory.isEmpty then [] else ["Output directory: " ++ directory])
    ++ ["require() calls rewritten: " ++ toString rewritten
        ++ " (unresolved: " ++ toString unresolved ++ ")"]
    ++ (← report.failedLines)
    ++ listed "Warnings:" report.warnings
    ++ listed "Errors:" report.errors)

def toDocument (report : Report) : Document :=
  .object [("origin", .text report.origin), ("wrapper_found", .bool report.wrapperFound),
    ("module_count", .int report.moduleCount),
    ("output_dir", report.outputDirectory.elim .null .text),
    ("modules", .list (report.modules.map ModuleReport.toDocument)),
    ("warnings", .list (report.warnings.map .text)),
    ("errors", .list (report.errors.map .text))]

end Report

end Debundle
