import Debundle.Disk.Path
import Debundle.Text.Content
import Debundle.Text.Quoted

/-!
# Faults of the file system
-/

namespace Debundle

/-- Why the file system refuses. -/
inductive DiskError where
  | missing | busy | exists | notDirectory | isDirectory | nameTooLong
  deriving DecidableEq

namespace DiskError

def number : DiskError → Nat
  | .missing => 2
  | .busy => 16
  | .exists => 17
  | .notDirectory => 20
  | .isDirectory => 21
  | .nameTooLong => 36

def text : DiskError → String
  | .missing => "No such file or directory"
  | .busy => "Device or resource busy"
  | .exists => "File exists"
  | .notDirectory => "Not a directory"
  | .isDirectory => "Is a directory"
  | .nameTooLong => "File name too long"

def category : DiskError → String
  | .missing => "FileNotFoundError"
  | .exists => "FileExistsError"
  | .notDirectory => "NotADirectoryError"
  | .isDirectory => "IsADirectoryError"
  | .busy | .nameTooLong => "OSError"

end DiskError

/-- A refusal together with what was tried. -/
inductive DiskFault where
  /-- An operation on one path. -/
  | onPath (error : DiskError) (path : String)
  /-- A finished file could not take its place. -/
  | onReplace (error : DiskError) (path : String)
  /-- A path holds a character that no path may hold. -/
  | nulInPath
  /-- A content cannot be written. -/
  | notEncoded (fault : EncodingFault)
  deriving DecidableEq

namespace DiskFault

/-- Something on the way that an operation on one path needs is not there. -/
def isMissing : DiskFault → Bool
  | .onPath .missing _ => true
  | _ => false

/-- The file system refuses, rather than that nothing sensible was asked for. -/
def isRefusal : DiskFault → Bool
  | .onPath .. | .onReplace .. => true
  | .nulInPath | .notEncoded _ => false

/-- What messages call the file that a new content is written to first. -/
def stagingLabel : String := "<staging>"

def category : DiskFault → String
  | .onPath error _ => error.category
  | .onReplace error _ => error.category
  | .nulInPath => "ValueError"
  | .notEncoded _ => "UnicodeEncodeError"

def message : DiskFault → String
  | .onPath error path => describe error ++ ": " ++ Quoted.quoted path
  | .onReplace error path =>
    describe error ++ ": " ++ Quoted.quoted stagingLabel ++ " -> " ++ Quoted.quoted path
  | .nulInPath => "embedded null byte"
  | .notEncoded fault => fault.message
where
  describe (error : DiskError) : String :=
    "[Errno " ++ toString error.number ++ "] " ++ error.text

end DiskFault

end Debundle
