import Debundle.Disk.Path
import Debundle.Module.Rename
import Debundle.Tree.Inspect

/-!
# Events

What a run tells about its progress, and how it is worded in the log.
-/

namespace Debundle

inductive Level where
  | debug | info | warning | error
  deriving DecidableEq

namespace Level

def word : Level → String
  | .debug => "DEBUG"
  | .info => "INFO"
  | .warning => "WARNING"
  | .error => "ERROR"

/-- Whether events of this level are shown to somebody who did not ask for all. -/
def isUrgent : Level → Bool
  | .warning | .error => true
  | .debug | .info => false

end Level

/-- The numbers of a tally as logs show them. -/
def Tally.shown : Option Tally → String
  | none => "\x7b\x7d"
  | some tally =>
    "\x7b'identifiers_renamed': " ++ toString tally.renamed
      ++ ", 'requires_rewritten': " ++ toString tally.rewritten
      ++ ", 'requires_unresolved': " ++ toString tally.unresolved.length ++ "\x7d"

inductive Event where
  /-- The bundle was read from a file, or from standard input. -/
  | read (characters : Nat) (path : Option Path)
  | parsed (characters statements : Nat)
  | wrapperFound (slots : Nat)
  | emptySlot (id : Nat)
  | noExport (id : Nat) (name : Value)
  | nameTaken (id : Nat) (candidate name : Value)
  | extracting (modules : Nat)
  | unresolved (argument : Value)
  | notRendered (id : Nat) (name : Value) (message : String)
  | processed (id : Nat) (name : Value) (tally : Option Tally)
  | nameReused (id : Nat) (name : Value)
  | formatUnchanged
  | writeRefused (path : Path) (reason : String)
  | writeFailed (path : Path) (reason : String)
  | written (characters : Nat) (path : Path)
  | unpacked (modules : Nat) (origin : String)
  | summary (text : String)

namespace Event

def level : Event → Level
  | .extracting _ | .unpacked .. | .summary _ => .info
  | .notRendered .. | .nameReused .. | .writeRefused .. => .warning
  | .writeFailed .. => .error
  | _ => .debug

/-- The part of the program that the log names as the origin of an event. -/
def origin : Event → String
  | .read .. => "unbundler.io.loader"
  | .parsed .. => "unbundler.parser"
  | .wrapperFound _ => "unbundler.locator"
  | .noExport .. | .nameTaken .. => "unbundler.exports"
  | .emptySlot _ | .extracting _ | .unresolved _ | .notRendered .. | .processed ..
  | .nameReused .. => "unbundler.extractor"
  | .formatUnchanged => "unbundler.pretty.beautify"
  | .writeRefused .. | .writeFailed .. | .written .. => "unbundler.io.writer"
  | .unpacked .. => "unbundler.pipeline"
  | .summary _ => "unbundler.main"

def message : Event → String
  | .read characters path =>
    "read " ++ toString characters ++ " characters from "
      ++ path.elim "standard input" Path.toText
  | .parsed characters statements =>
    "parsed bundle (" ++ toString characters ++ " characters, " ++ toString statements
      ++ " top-level statements)"
  | .wrapperFound slots => "found webpack wrapper with " ++ toString slots ++ " modules"
  | .emptySlot id => "module slot " ++ toString id ++ " is empty, skipping"
  | .noExport id name =>
    "module " ++ toString id ++ " has no export assignment, using " ++ name.display
  | .nameTaken id candidate name =>
    "module " ++ toString id ++ " export name " ++ candidate.inspect
      ++ " already taken, using " ++ name.inspect
  | .extracting modules => "extracting " ++ toString modules ++ " modules"
  | .unresolved argument => "leaving unresolved require(" ++ argument.inspect ++ ") untouched"
  | .notRendered id name message =>
    "failed to render module " ++ toString id ++ " (" ++ name.display ++ "): " ++ message
  | .processed id name tally =>
    "module " ++ toString id ++ " -> " ++ name.display ++ " " ++ Tally.shown tally
  | .nameReused id name =>
    "module " ++ toString id ++ " reuses name " ++ name.inspect
      ++ "; earlier module output is replaced"
  | .formatUnchanged => "beautifier left module source unchanged"
  | .writeRefused path reason => "refusing to write " ++ path.toText ++ ": " ++ reason
  | .writeFailed path reason => "failed to write " ++ path.toText ++ ": " ++ reason
  | .written characters path =>
    "wrote " ++ toString characters ++ " characters to " ++ path.toText
  | .unpacked modules origin =>
    "unpacked " ++ toString modules ++ " modules from " ++ origin
  | .summary text => "run summary\n" ++ text

end Event

end Debundle
