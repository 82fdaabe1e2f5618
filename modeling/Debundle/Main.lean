import Debundle.Command.Execute
import Debundle.Tree.Json
import Std.Time.Format

/-!
# The program

Looks at the files that a command can touch, carries the command out on what was seen,
and brings the files in line with the result.  The syntax tree of the bundle is made by a
parser of its own: the environment variable `DEBUNDLE_TREE` names the JSON document that
holds it.  Sources are written as they are printed.
-/

namespace Debundle.Program

def usage : String :=
  "usage: unbundler [-h] [-i INPUT] [-o OUTPUT] [--no-beautify] [--indent INDENT] [--list]\n" ++
  "                 [--report-json PATH] [--debug-log PATH] [--log-file PATH] [--no-color]\n" ++
  "                 [--verbose]\n"

def treeVariable : String := "DEBUNDLE_TREE"

/-- The syntax tree of the bundle, or why there is none. -/
def readTree : IO (Except String Value) := do
  match ← IO.getEnv treeVariable with
  | none => return .error (treeVariable ++ " names no syntax tree")
  | some path =>
    match JsonText.read? (← IO.FS.readFile path) with
    | some tree => return .ok tree
    | none => return .error (path ++ " holds no syntax tree")

/-- What there is at a place. -/
def observe (location : Location) : IO (Option Entry) := do
  let path := (← IO.currentDir) / location.toPath.toText
  if ← path.isDir then return some .directory
  else if ← path.pathExists then return some (.file (← IO.FS.readBinFile path))
  else return none

/-- Adds what there is on the way of a path to a store. -/
def survey (store : Store) (path : Path) : IO Store :=
  (path.waypoints store.current).foldlM (fun store place => do
    match ← observe place with
    | some entry => return store.put place entry
    | none => return store) store

def currentPlace : IO Location := do
  return (Path.ofText (← IO.currentDir).toString).steps

/-- The paths that a command names. -/
def namedPaths (arguments : Arguments) (current : Location) : List Path :=
  current.toPath :: (Command.options arguments current).directory ::
    [arguments.input, arguments.reportPath, arguments.tracePath, arguments.logPath].filterMap
      Command.pathOf?

/-- The paths of the modules in a bundle. -/
def modulePaths (tools : Tools) (arguments : Arguments) (input : Input) (store : Store) :
    List Path :=
  match Bundle.load store input arguments.input with
  | .error _ => []
  | .ok bundle =>
    match (extractModules tools.parser bundle.text).run.run { store } with
    | (.ok table, _) =>
      let directory := (Command.options arguments store.current).directory
      table.modules.map fun module => modulePath directory module.name
    | (.error _, _) => []

/-- Whether a place holds this already. -/
def holds (store : Store) (place : Location) : Entry → Bool
  | .directory => (store.entry? place).any Entry.isDirectory
  | .file content =>
    match store.entry? place with
    | some (.file held) => held == content
    | _ => false

/-- Makes the files and directories that are new in a store. -/
def settle (old new : Store) : IO Unit :=
  for (place, entry) in new.entries do
    unless holds old place entry do
      let path := place.toPath.toText
      match entry with
      | .directory => IO.FS.createDirAll path
      | .file content =>
        IO.FS.writeBinFile (path ++ ".part") content
        IO.FS.rename (path ++ ".part") path

def readInput (arguments : Arguments) : IO Input := do
  let stream ← IO.getStdin
  let isTerminal ← stream.isTty
  match Source.select arguments.input { isTerminal } with
  | some .input => return { text := ← stream.readToEnd, isTerminal }
  | _ => return { isTerminal }

def carryOut (arguments : Arguments) : IO UInt32 := do
  let input ← readInput arguments
  let tree ← readTree
  let tools : Tools :=
    { parser := fun _ _ => tree, formatter := fun _ source => .ok (.ofText source.display) }
  let current ← currentPlace
  let bare : Store := { current, entries := [] }
  let named ← (namedPaths arguments current).foldlM survey bare
  let store ← (modulePaths tools arguments input named).foldlM survey named
  let time := (← Std.Time.PlainDateTime.now).format "uuuu-MM-dd HH:mm:ss"
  let surroundings : Surroundings :=
    { input, hasTerminal := ← (← IO.getStdout).isTty, time }
  let (result, session) := (Command.execute tools arguments surroundings).run.run { store }
  settle store session.store
  IO.eprint (Event.shown arguments.isVerbose session.events)
  match result with
  | .ok outcome =>
    IO.print (String.join outcome.lines)
    return outcome.code.toUInt32
  | .error failure =>
    IO.eprintln (failure.category ++ ": " ++ failure.message)
    return 1

end Debundle.Program

def main (arguments : List String) : IO UInt32 := do
  match Debundle.Arguments.parse arguments with
  | .ok arguments => Debundle.Program.carryOut arguments
  | .error .help =>
    IO.print Debundle.Program.usage
    return 0
  | .error (.misuse error) =>
    IO.eprint Debundle.Program.usage
    IO.eprintln error.message
    return 2
