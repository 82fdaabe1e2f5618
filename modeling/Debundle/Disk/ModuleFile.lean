import Debundle.Disk.Store
import Debundle.Tree.Inspect

/-!
# Files of modules

Each module is written to a file of its name below the output directory.  Names may hold
slashes; a name that leads out of the output directory is refused before anything is
touched.
-/

namespace Debundle

/-- The file of the module `name`. -/
def modulePath (directory : Path) (name : Value) : Path :=
  directory.join (name.display ++ ".js")

/-- Whether a path stays below a directory, whatever there is on the way. -/
def Path.isInside (path directory : Path) (current : Location) : Bool :=
  !path.holdsNul && !directory.holdsNul
    && (directory.resolve current).isPrefixOf (path.resolve current)

/-- Why a module was not written. -/
inductive WriteFault where
  /-- The file would not be in the output directory. -/
  | escapes
  | refused (fault : DiskFault)
  deriving DecidableEq

def WriteFault.message : WriteFault → String
  | .escapes => "module path escapes the output directory"
  | .refused fault => fault.message

/-- What became of writing a module. -/
structure WriteResult where
  name : Value
  path : Path
  fault? : Option WriteFault := none

namespace WriteResult

def isSuccess (result : WriteResult) : Bool :=
  result.fault?.isNone

def error? (result : WriteResult) : Option String :=
  result.fault?.map WriteFault.message

end WriteResult

/-- Writes a module.  A refusal is part of the result. -/
def writeModule (directory : Path) (name : Value) (content : Content) : Disk WriteResult := do
  let path := modulePath directory name
  if path.isInside directory (← get).current then
    try
      Disk.replaceFile path content
      pure { name, path }
    catch fault =>
      if fault.isRefusal then pure { name, path, fault? := some (.refused fault) }
      else throw fault
  else return { name, path, fault? := some .escapes }

end Debundle
