import Debundle.Disk.Fault
import Debundle.Entries
import Debundle.Text.Hex

/-!
# Files and directories

A store holds the files and directories that a run sees.  An operation either
succeeds or is refused; what it has created before it was refused stays.
-/

namespace Debundle

inductive Entry where
  | directory
  | file (content : ByteArray)

def Entry.isDirectory : Entry → Bool
  | .directory => true
  | .file _ => false

structure Store where
  /-- The directory that relative paths start from. -/
  current : Location
  /-- What there is below the top directory. -/
  entries : List (Location × Entry)

/-- An operation on a store. -/
abbrev Disk := ExceptT DiskFault (StateM Store)

namespace Store

/-- What there is at a place. -/
def entry? (store : Store) (location : Location) : Option Entry :=
  if location = [] then some .directory else store.entries.lookup location

def put (store : Store) (location : Location) (entry : Entry) : Store :=
  { store with entries := Entries.put store.entries location entry }

/-- Removes what there is at a place. -/
def erase (store : Store) (location : Location) : Store :=
  { store with entries := store.entries.filter fun entry => entry.1 != location }

/-- Moves what there is at one place to another. -/
def move (store : Store) (source target : Location) : Store :=
  match store.entry? source with
  | some entry => (store.erase source).put target entry
  | none => store

/-- The first place in a directory, of those that `name` numbers, where there is nothing.
Among one more place than there are entries one is free. -/
def freePlace (store : Store) (home : Location) (name : Nat → String) : Location :=
  let free? := (List.range (store.entries.length + 1)).find? fun number =>
    (store.entry? (home ++ [name number])).isNone
  home ++ [name (free?.getD 0)]

/-- The longest name of a file or directory, in bytes. -/
def nameLimit : Nat := 255

/-- Whether a name can stand in a directory. -/
def admits (step : String) : Bool :=
  step.utf8ByteSize ≤ nameLimit

/-- Goes one step from a directory. -/
def stepFrom (store : Store) (location : Location) (step : String) :
    Except DiskError Location :=
  match store.entry? location with
  | none => .error .missing
  | some (.file _) => .error .notDirectory
  | some .directory =>
    if admits step then .ok (Path.follow location step) else .error .nameTooLong

/-- The place that steps lead to from a place.  All but the last have to lead to
directories. -/
def walk (store : Store) (location : Location) (steps : List String) :
    Except DiskError Location :=
  steps.foldlM store.stepFrom location

/-- The place that a path leads to. -/
def locate (store : Store) (path : Path) : Except DiskError Location :=
  store.walk (path.start store.current) path.steps

/-- What a path leads to. -/
def look (store : Store) (path : Path) : Except DiskError Entry := do
  match store.entry? (← store.locate path) with
  | some entry => return entry
  | none => throw .missing

def isDirectory (store : Store) (path : Path) : Bool :=
  match store.look path with
  | .ok entry => entry.isDirectory
  | .error _ => false

/-- Whether a path leads to a file.  A path that leads nowhere does not; only a name
that is too long is refused. -/
def fileContent? (store : Store) (path : Path) : Except DiskFault (Option ByteArray) :=
  if path.holdsNul then .ok none
  else
    match store.look path with
    | .ok (.file content) => .ok (some content)
    | .error .nameTooLong => .error (.onPath .nameTooLong path.toText)
    | _ => .ok none

/-- The place of a new directory. -/
def directoryPlace (store : Store) (path : Path) : Except DiskError Location := do
  match path.steps.getLast? with
  | none => throw .exists
  | some last =>
    let home ← store.walk (path.start store.current) path.steps.dropLast
    let place ← store.stepFrom home last
    if last = Path.parentStep || (store.entry? place).isSome then throw .exists
    return place

end Store

namespace Disk

/-- Makes one directory. -/
def makeDirectory (path : Path) : Disk Unit := do
  let store ← get
  if path.holdsNul then throw .nulInPath
  match store.directoryPlace path with
  | .ok place => set (store.put place .directory)
  | .error error => throw (.onPath error path.toText)

/-- Makes one directory unless it is there. -/
def ensureDirectory (path : Path) : Disk Unit := do
  try makeDirectory path
  catch fault =>
    if fault = .nulInPath || !(← get).isDirectory path then throw fault

/-- Makes a directory and the directories on the way to it, as far as they are not
there. -/
def makeDirectories (path : Path) : Disk Unit :=
  go path.steps.length path
where
  /-- At most `count` directories are missing. -/
  go : Nat → Path → Disk Unit
    | 0, path => ensureDirectory path
    | count + 1, path => do
      try makeDirectory path
      catch fault =>
        if fault.isMissing then
          go count path.parent
          ensureDirectory path
        else if fault = .nulInPath || !(← get).isDirectory path then throw fault

/-- Empties a file, or makes a new one, and returns its place.  The path in a refusal is
the absolute one. -/
def openFile (path : Path) : Disk Location := do
  let store ← get
  if path.holdsNul then throw .nulInPath
  let target := path.resolve store.current
  let absolute := target.toPath
  match store.locate absolute with
  | .error error => throw (.onPath error absolute.toText)
  | .ok place =>
    match store.entry? place with
    | some .directory => throw (.onPath .isDirectory absolute.toText)
    | _ =>
      set (store.put place (.file .empty))
      return place

/-- Writes `text` to a file that was opened. -/
def writeOpened (place : Location) (text : String) : Disk Unit :=
  modify fun store => store.put place (.file text.toUTF8)

/-- The name of a file that a new content of the file `name` is written to first. -/
def stagingName (name : String) (number : Nat) : String :=
  "." ++ name ++ "." ++ String.ofList (hexDigits 8 number) ++ ".part"

/-- What the name of a staging file adds to the name of the file, in bytes. -/
def stagingOverhead : Nat := 15

/-- Writes content to a new file beside the file that a path leads to, and returns its
place.  A content without an encoding leaves the new file empty. -/
def stage (path : Path) (content : Content) : Disk Location := do
  let store ← get
  if path.holdsNul then throw .nulInPath
  if Store.nameLimit < path.name.utf8ByteSize + stagingOverhead then
    throw (.onPath .nameTooLong DiskFault.stagingLabel)
  match store.locate path.parent with
  | .error error => throw (.onPath error DiskFault.stagingLabel)
  | .ok home =>
    let place := store.freePlace home (stagingName path.name)
    match content.encode with
    | .ok bytes =>
      set (store.put place (.file bytes))
      return place
    | .error fault =>
      set (store.put place (.file .empty))
      throw (.notEncoded fault)

/-- Moves a staged file to the place that a path leads to. -/
def moveTo (path : Path) (staged : Location) : Disk Unit := do
  let store ← get
  if path.steps.isEmpty || path.name = Path.parentStep then
    throw (.onReplace .busy path.toText)
  match store.locate path with
  | .error error => throw (.onReplace error path.toText)
  | .ok place =>
    match store.entry? place with
    | some .directory => throw (.onReplace .isDirectory path.toText)
    | _ => set (store.move staged place)

/-- Puts content in the place of a file in one step, so that nobody sees a part of it.
Missing directories are made first.  The content is staged in a file beside it, which is
gone afterwards unless the content has no encoding. -/
def replaceFile (path : Path) (content : Content) : Disk Unit := do
  makeDirectories path.parent
  let staged ← stage path content
  try moveTo path staged
  catch fault =>
    modify fun store => store.erase staged
    throw fault

end Disk

end Debundle
