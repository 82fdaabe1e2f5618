import Debundle.Command.Arguments
import Debundle.Command.Log
import Debundle.Unpack

/-!
# The command

Reads a bundle, unpacks it and says what was done.
-/

namespace Debundle

/-- What a command finds around it. -/
structure Surroundings where
  input : Input := {}
  /-- Whether standard output is a terminal. -/
  hasTerminal : Bool := false
  /-- The time that log files note. -/
  time : String

/-- The status lines of a command, and its exit code. -/
structure Outcome where
  code : Nat
  lines : List String := []

namespace Outcome

/-- Everything was done. -/
def doneCode : Nat := 0

/-- There was no bundle, or not all modules were written. -/
def failedCode : Nat := 1

/-- The bundle could not be parsed. -/
def unparsedCode : Nat := 2

end Outcome

namespace Command

/-- A path that was given. -/
def pathOf? (text : String) : Option Path :=
  if text.isEmpty then none else some (.ofText text)

def console (arguments : Arguments) (surroundings : Surroundings) : Console where
  isColoured := arguments.allowsColour && surroundings.hasTerminal

/-- Without an output directory, modules go to the current one. -/
def options (arguments : Arguments) (current : Location) : UnpackOptions where
  directory := (pathOf? arguments.output).getD current.toPath
  formats := arguments.formats
  indent := arguments.indent
  listsOnly := arguments.listsOnly
  tracePath := pathOf? arguments.tracePath

/-- What is said about the source of the bundle. -/
def readingLines (console : Console) (path : String) : Option Source → List String
  | some (.file _) =>
    [console.line ("Reading modules from " ++ console.paint path .magenta ++ "...")
      (some .cyan)]
  | some .input => [console.line "Reading standard input..." (some .cyan)]
  | none => []

def failureLine (console : Console) (message : String) : String :=
  console.line ("Error: " ++ message) (some .red)

def writeLine (console : Console) (write : WriteResult) : String :=
  let target := console.paint write.path.toText .blue
  match write.error? with
  | none => console.line ("Successfully wrote module to " ++ target) (some .green)
  | some error => console.line ("Error writing " ++ target ++ ": " ++ error) (some .red)

def moduleLine (console : Console) (module : Module) : String :=
  console.line (toString module.id ++ "\t" ++ module.name.display) none

/-- What is said about the modules. -/
def moduleLines (console : Console) (listsOnly : Bool) (unpacked : Unpacked) : List String :=
  let modules := unpacked.table.modules
  console.line
      ("Found " ++ console.paint (toString modules.length) .magenta ++ " modules.") none
    :: (if listsOnly then modules.map (moduleLine console) else [])
    ++ unpacked.writes.map (writeLine console)

/-- What is told about reading a bundle. -/
def readEvent (bundle : Bundle) : Source → Event
  | .file path => .read bundle.text.length (some path)
  | .input => .read bundle.text.length none

/-- Reads the bundle that the arguments mean. -/
def load (arguments : Arguments) (input : Input) : Run (Except LoadFault Bundle) := do
  match Source.select arguments.input input with
  | none => return .error .noSource
  | some source =>
    match Bundle.read (← get).store input source with
    | .error (.refused fault) => throw (.refused fault)
    | .error fault => return .error fault
    | .ok bundle =>
      Run.tell [readEvent bundle source]
      return .ok bundle

/-- Writes the report that the arguments ask for. -/
def writeReport (arguments : Arguments) (report : Report) : Run Unit := do
  if let some path := pathOf? arguments.reportPath then
    Run.onDisk (Disk.replaceFile path (.ofText (report.toDocument.render 0 ++ "\n")))

/-- Unpacks a bundle and says what was done. -/
def process (tools : Tools) (arguments : Arguments) (console : Console) (bundle : Bundle) :
    Run Outcome := do
  let options := options arguments (← get).store.current
  try
    let unpacked ← unpack tools options bundle
    writeReport arguments unpacked.report
    if arguments.isVerbose then
      Run.tell [.summary (← Run.ofExcept unpacked.report.toText)]
    return {
      code := if unpacked.isSuccess then Outcome.doneCode else Outcome.failedCode
      lines := moduleLines console options.listsOnly unpacked }
  catch failure =>
    match failure with
    | .notParsed _ =>
      return { code := Outcome.unparsedCode, lines := [failureLine console failure.message] }
    | .noWrapper =>
      return { code := Outcome.failedCode, lines := [failureLine console failure.message] }
    | _ => throw failure

/-- Reads and unpacks the bundle that the arguments mean. -/
def perform (tools : Tools) (arguments : Arguments) (surroundings : Surroundings) :
    Run Outcome := do
  let console := console arguments surroundings
  let reading :=
    readingLines console arguments.input (Source.select arguments.input surroundings.input)
  match ← load arguments surroundings.input with
  | .error fault =>
    return {
      code := Outcome.failedCode
      lines := reading ++ [failureLine console fault.message] }
  | .ok bundle =>
    let outcome ← process tools arguments console bundle
    return { outcome with lines := reading ++ outcome.lines }

/-- Opens the log file that the arguments ask for. -/
def openLog (arguments : Arguments) : Run (Option Location) := do
  match pathOf? arguments.logPath with
  | none => return none
  | some path =>
    Run.onDisk do
      Disk.makeDirectories path.parent
      return some (← Disk.openFile path)

/-- Writes the log to its place, unless another file has taken it. -/
def closeLog (time : String) (place : Location) : Run Unit := do
  let session ← get
  match session.store.entry? place with
  | some (.file content) =>
    if content.isEmpty then
      Run.onDisk (Disk.writeOpened place (Event.kept time session.events))
  | _ => return

/-- Carries out the command. -/
def execute (tools : Tools) (arguments : Arguments) (surroundings : Surroundings) :
    Run Outcome := do
  let log? ← openLog arguments
  let outcome ← perform tools arguments surroundings
  if let some place := log? then closeLog surroundings.time place
  return outcome

end Command

end Debundle
