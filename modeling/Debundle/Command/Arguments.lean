import Debundle.Command.Token
import Debundle.Text.Integer

/-!
# Arguments

The arguments of the command are carried out from left to right.  What is no setting and
no value of one is left over, and refused at the end.
-/

namespace Debundle

/-- What a command was asked to do.  Texts are empty if they were not given. -/
structure Arguments where
  input : String := ""
  output : String := ""
  formats : Bool := true
  /-- The number of spaces per level; none if its value was cut away. -/
  indent : Option Int := some 2
  listsOnly : Bool := false
  reportPath : String := ""
  tracePath : String := ""
  logPath : String := ""
  allowsColour : Bool := true
  isVerbose : Bool := false

/-- Why a command does not start. -/
inductive Stop where
  /-- Somebody asked for help. -/
  | help
  | misuse (error : UsageError)

namespace Arguments

/-- Carries out a setting.  The text counts only for settings that take a value.  A value
that does nothing but divide arguments is cut away, and the setting is left without
one. -/
def apply (arguments : Arguments) (text : String) (setting : Setting) :
    Except Stop Arguments :=
  let value? := if text = Token.dividerText then none else some text
  let value := value?.getD ""
  match setting with
  | .help => .error .help
  | .input => .ok { arguments with input := value }
  | .output => .ok { arguments with output := value }
  | .noBeautify => .ok { arguments with formats := false }
  | .indent => do return { arguments with indent := ← value?.mapM readIndent }
  | .list => .ok { arguments with listsOnly := true }
  | .reportJson => .ok { arguments with reportPath := value }
  | .debugLog => .ok { arguments with tracePath := value }
  | .logFile => .ok { arguments with logPath := value }
  | .noColor => .ok { arguments with allowsColour := false }
  | .verbose => .ok { arguments with isVerbose := true }
where
  readIndent (value : String) : Except Stop Int :=
    match IntegerText.read? value with
    | some indent => .ok indent
    | none => .error (.misuse (.notInteger .indent value))

/-- What the end of an argument asks for. -/
inductive Ending where
  /-- A setting, whose value is the next argument. -/
  | bare (setting : Setting)
  | valued (setting : Setting) (value : String)

/-- Takes apart what is attached to a short setting: a value, or more short settings. -/
def expandShort (setting : Setting) :
    List Char → Except UsageError (List Setting × Ending)
  | [] =>
    if setting.takesValue then .ok ([], .valued setting "")
    else .error (.ignoredValue setting "")
  | char :: rest =>
    let text := String.ofList (char :: rest)
    if setting.takesValue then .ok ([], .valued setting text)
    else
      match Setting.ofSpelling? (String.ofList ['-', char]) with
      | none => .error (.ignoredValue setting text)
      | some next => do
        let (flags, ending) ← match rest with
          | [] => .ok ([], .bare next)
          | second :: others => expandShort next (second :: others)
        return (setting :: flags, ending)

/-- The settings that one argument writes. -/
def expand (setting : Setting) (isLong : Bool) :
    Option (List Char) → Except UsageError (List Setting × Ending)
  | none => .ok ([], .bare setting)
  | some attached =>
    if isLong && !setting.takesValue then
      .error (.ignoredValue setting (String.ofList attached))
    else expandShort setting attached

/-- Carries out settings without values. -/
def applyFlags (arguments : Arguments) (flags : List Setting) : Except Stop Arguments :=
  flags.foldlM (fun arguments flag => arguments.apply "" flag) arguments

def misuseOf {α : Type} : Except UsageError α → Except Stop α
  | .ok result => .ok result
  | .error error => .error (.misuse error)

/-- Carries out arguments, and returns what is left over. -/
def carryOut : Arguments → List Token → Except Stop (Arguments × List String)
  | arguments, [] => .ok (arguments, [])
  | arguments, .operand text :: rest => leave text (carryOut arguments rest)
  | arguments, .divider :: rest => leave Token.dividerText (carryOut arguments rest)
  | arguments, .unknown text :: rest => leave text (carryOut arguments rest)
  | arguments, .option setting isLong attached :: rest => do
    let (flags, ending) ← misuseOf (expand setting isLong attached)
    match ending with
    | .valued last value =>
      carryOut (← (← applyFlags arguments flags).apply value last) rest
    | .bare last =>
      if last.takesValue then
        match rest with
        | .operand value :: rest =>
          carryOut (← (← applyFlags arguments flags).apply value last) rest
        | _ => .error (.misuse (.missingValue last))
      else carryOut (← (← applyFlags arguments flags).apply "" last) rest
where
  /-- Adds a text to what is left over. -/
  leave (text : String) (outcome : Except Stop (Arguments × List String)) :
      Except Stop (Arguments × List String) :=
    outcome.map fun (arguments, left) => (arguments, text :: left)

/-- Reads the arguments of a command. -/
def parse (texts : List String) : Except Stop Arguments := do
  let tokens ← misuseOf (Token.readAll texts)
  let (arguments, left) ← carryOut {} tokens
  if left.isEmpty then return arguments else throw (.misuse (.unrecognized left))

end Arguments

end Debundle
