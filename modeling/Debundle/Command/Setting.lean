import Debundle.Text.Quoted

/-!
# Settings of the command line
-/

namespace Debundle

inductive Setting where
  | help | input | output | noBeautify | indent | list | reportJson | debugLog | logFile
  | noColor | verbose
  deriving DecidableEq

namespace Setting

/-- All settings, in the order in which messages list them. -/
def all : List Setting :=
  [.help, .input, .output, .noBeautify, .indent, .list, .reportJson, .debugLog, .logFile,
    .noColor, .verbose]

/-- The ways to write a setting. -/
def spellings : Setting → List String
  | .help => ["-h", "--help"]
  | .input => ["-i", "--input"]
  | .output => ["-o", "--out", "--output"]
  | .noBeautify => ["--no-beautify"]
  | .indent => ["--indent"]
  | .list => ["--list"]
  | .reportJson => ["--report-json"]
  | .debugLog => ["--debug-log"]
  | .logFile => ["--log-file"]
  | .noColor => ["--no-color"]
  | .verbose => ["--verbose"]

/-- Whether a setting is followed by a value. -/
def takesValue : Setting → Bool
  | .input | .output | .indent | .reportJson | .debugLog | .logFile => true
  | .help | .noBeautify | .list | .noColor | .verbose => false

/-- The name of a setting in messages. -/
def title (setting : Setting) : String :=
  "/".intercalate setting.spellings

/-- All ways to write some setting, with the setting. -/
def spelled : List (String × Setting) :=
  all.flatMap fun setting => setting.spellings.map fun spelling => (spelling, setting)

def ofSpelling? (spelling : String) : Option Setting :=
  spelled.lookup spelling

/-- The spellings that start with `start`, with their settings. -/
def startingWith (start : List Char) : List (String × Setting) :=
  spelled.filter fun (spelling, _) => start.isPrefixOf spelling.toList

end Setting

/-- What is wrong with the arguments of a command. -/
inductive UsageError where
  | ambiguous (argument : String) (spellings : List String)
  | missingValue (setting : Setting)
  | ignoredValue (setting : Setting) (value : String)
  | notInteger (setting : Setting) (value : String)
  | unrecognized (arguments : List String)
  deriving DecidableEq

namespace UsageError

def message (error : UsageError) : String :=
  "unbundler: error: " ++ match error with
    | .ambiguous argument spellings =>
      "ambiguous option: " ++ argument ++ " could match " ++ ", ".intercalate spellings
    | .missingValue setting => about setting "expected one argument"
    | .ignoredValue setting value =>
      about setting ("ignored explicit argument " ++ Quoted.quoted value)
    | .notInteger setting value =>
      about setting ("invalid int value: " ++ Quoted.quoted value)
    | .unrecognized arguments => "unrecognized arguments: " ++ " ".intercalate arguments
where
  about (setting : Setting) (complaint : String) : String :=
    "argument " ++ setting.title ++ ": " ++ complaint

end UsageError

end Debundle
