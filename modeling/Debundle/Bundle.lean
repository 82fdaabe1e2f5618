import Debundle.Disk.Store
import Debundle.Text.Utf8

/-!
# Bundles

The text of a bundle, and where it was read from.
-/

namespace Debundle

structure Bundle where
  text : String
  /-- The path of the file, or `Bundle.inputLabel`. -/
  origin : String

/-- Standard input. -/
structure Input where
  text : String := ""
  /-- Whether somebody types it. -/
  isTerminal : Bool := false

/-- Where a bundle is read from. -/
inductive Source where
  | file (path : Path)
  | input

/-- Why there is no bundle. -/
inductive LoadFault where
  | noSource
  | notFound (path : Path)
  | refused (fault : DiskFault)

namespace LoadFault

def category : LoadFault → String
  | .noSource | .notFound _ => "BundleLoadError"
  | .refused fault => fault.category

def message : LoadFault → String
  | .noSource => "Missing input path!"
  | .notFound path => "input file not found: " ++ path.toText
  | .refused fault => fault.message

end LoadFault

/-- What is written in place of a path for standard input. -/
def Source.inputMark : String := "-"

/-- The source that is meant by a path, which may be absent or empty.  Without a path
standard input is meant, unless somebody types it. -/
def Source.select (path : String) (input : Input) : Option Source :=
  if path = inputMark then some .input
  else if path.isEmpty then if input.isTerminal then none else some .input
  else some (.file (.ofText path))

namespace Bundle

/-- What is written in place of a path for a bundle from standard input. -/
def inputLabel : String := "<stdin>"

def isFromInput (bundle : Bundle) : Bool :=
  bundle.origin == inputLabel

/-- Reads a bundle. -/
def read (store : Store) (input : Input) : Source → Except LoadFault Bundle
  | .input => .ok { text := input.text, origin := inputLabel }
  | .file path =>
    match store.fileContent? path with
    | .ok (some content) => .ok { text := Utf8.textOf content, origin := path.toText }
    | .ok none => .error (.notFound path)
    | .error fault => .error (.refused fault)

/-- Reads the bundle that is meant by a path. -/
def load (store : Store) (input : Input) (path : String) : Except LoadFault Bundle :=
  match Source.select path input with
  | some source => read store input source
  | none => .error .noSource

end Bundle

end Debundle
