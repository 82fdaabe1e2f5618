import Debundle.Command.Setting
import Debundle.Text.Digit

/-!
# Kinds of arguments

Every argument is told apart from the others by its text alone: it writes a setting, or
it is an operand, which may become the value of a setting.  Long settings may be cut
short as long as only one spelling remains.
-/

namespace Debundle

/-- An argument. -/
inductive Token where
  /-- Looks like no setting. -/
  | operand (text : String)
  /-- All arguments after this one are operands. -/
  | divider
  /-- Writes a setting, and what stands behind it in the same argument. -/
  | option (setting : Setting) (isLong : Bool) (attached : Option (List Char))
  /-- Looks like a setting, and is none. -/
  | unknown (text : String)

namespace Token

def dividerText : String := "--"

/-- The parts before and after the first equals sign. -/
def splitAssigned (chars : List Char) : List Char × Option (List Char) :=
  match chars.dropWhile (· != '=') with
  | [] => (chars, none)
  | _ :: value => (chars.takeWhile (· != '='), some value)

/-- The setting that an argument writes exactly, with or without a value. -/
def written? (argument : String) : Option Token :=
  match Setting.ofSpelling? argument, splitAssigned argument.toList with
  | some setting, _ => some (.option setting (isLong argument.toList) none)
  | none, (spelling, some value) =>
    (Setting.ofSpelling? (String.ofList spelling)).map fun setting =>
      .option setting (isLong spelling) (some value)
  | none, _ => none
where
  isLong (chars : List Char) : Bool := ['-', '-'].isPrefixOf chars

/-- The settings that an argument may be meant to write, with their spellings. -/
def meant (argument : String) : List (String × Token) :=
  match argument.toList with
  | '-' :: '-' :: rest =>
    let (start, value?) := splitAssigned ('-' :: '-' :: rest)
    (Setting.startingWith start).map fun (spelling, setting) =>
      (spelling, .option setting true value?)
  | '-' :: char :: rest =>
    let spelling := String.ofList ['-', char]
    ((Setting.ofSpelling? spelling).map fun setting =>
      (spelling, .option setting false (some rest))).toList
  | _ => []

/-- Negative numbers are no settings: a minus sign with digits, among which there may be
one point before the last digit.  A final newline does not count. -/
def isNegativeNumber (argument : String) : Bool :=
  match argument.toList with
  | '-' :: digits =>
    let line := if digits.getLast? = some '\n' then digits.dropLast else digits
    match line.dropWhile CharSet.decimals.contains with
    | [] => !line.isEmpty
    | '.' :: fraction => CharSet.decimals.spells (String.ofList fraction)
    | _ => false
  | _ => false

/-- Tells what an argument is. -/
def read (argument : String) : Except UsageError Token :=
  match argument.toList with
  | '-' :: _ :: _ =>
    match written? argument, meant argument with
    | some token, _ => .ok token
    | none, [(_, token)] => .ok token
    | none, [] =>
      if isNegativeNumber argument || argument.toList.contains ' ' then
        .ok (.operand argument)
      else .ok (.unknown argument)
    | none, several => .error (.ambiguous argument (several.map Prod.fst))
  | _ => .ok (.operand argument)

/-- Tells what the arguments are. -/
def readAll : List String → Except UsageError (List Token)
  | [] => .ok []
  | argument :: rest =>
    if argument = dividerText then .ok (.divider :: rest.map .operand)
    else do return (← read argument) :: (← readAll rest)

end Token

end Debundle
