import Debundle.Disk.ModuleFile
import Debundle.Event
import Debundle.Tree.Fault

/-!
# Sessions

A run works on files and directories and tells what it does.  Both are kept when the
run fails.
-/

namespace Debundle

/-- Why a run ended early. -/
inductive Failure where
  | notParsed (message : String)
  | noWrapper
  | malformed (fault : Fault)
  | refused (fault : DiskFault)

namespace Failure

def category : Failure → String
  | .notParsed _ => "BundleParseError"
  | .noWrapper => "WrapperNotFoundError"
  | .malformed fault => fault.category
  | .refused fault => fault.category

def message : Failure → String
  | .notParsed message => "failed to parse bundle: " ++ message
  | .noWrapper => "Could not find a Webpack wrapper!"
  | .malformed fault => fault.message
  | .refused fault => fault.message

end Failure

structure Session where
  store : Store
  /-- What was told so far, in order. -/
  events : List Event := []

abbrev Run := ExceptT Failure (StateM Session)

namespace Run

def tell (events : List Event) : Run Unit :=
  modify fun session => { session with events := session.events ++ events }

/-- Works on the store; a fault ends the run. -/
def onDisk {α : Type} (action : Disk α) : Run α := do
  let session ← get
  let (ending, store) := action.run.run session.store
  set { session with store }
  match ending with
  | .ok result => return result
  | .error fault => throw (.refused fault)

/-- Goes on with a result; a malformed tree ends the run. -/
def ofExcept {α : Type} : Except Fault α → Run α
  | .ok result => return result
  | .error fault => throw (.malformed fault)

end Run

/-- What is told about writing a content. -/
def WriteResult.event (result : WriteResult) (content : Content) : Event :=
  match result.fault? with
  | none => .written content.length result.path
  | some .escapes => .writeRefused result.path WriteFault.escapes.message
  | some (.refused fault) => .writeFailed result.path fault.message

end Debundle
