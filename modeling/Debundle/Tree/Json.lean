import Debundle.Text.Utf8
import Debundle.Tree.Value

/-!
# Reading trees

Parsers hand trees over as JSON documents.  Numbers with a point or an exponent are read
as doubles, other numbers as integers.  Every value costs at least one character, so the
length of a document is budget enough to read it.
-/

namespace Debundle.JsonText

def isSpace (char : Char) : Bool :=
  char == ' ' || char == '\n' || char == '\r' || char == '\t'

def hexValue? (char : Char) : Option Nat :=
  if char.isDigit then some (char.toNat - '0'.toNat)
  else if 'a' ≤ char ∧ char ≤ 'f' then some (char.toNat - 'a'.toNat + 10)
  else if 'A' ≤ char ∧ char ≤ 'F' then some (char.toNat - 'A'.toNat + 10)
  else none

/-- The character that an escape of one letter stands for. -/
def escaped? : Char → Option Char
  | '"' => some '"'
  | '\\' => some '\\'
  | '/' => some '/'
  | 'b' => some '\x08'
  | 'f' => some '\x0c'
  | 'n' => some '\n'
  | 'r' => some '\r'
  | 't' => some '\t'
  | _ => none

/-- The code units or code points of a text up to its closing quote, and what follows. -/
def readUnits : List Char → Option (List Nat × List Char)
  | [] => none
  | '"' :: rest => some ([], rest)
  | '\\' :: 'u' :: a :: b :: c :: d :: rest => do
    let unit := ((← hexValue? a) * 16 + (← hexValue? b)) * 256
      + (← hexValue? c) * 16 + (← hexValue? d)
    let (units, after) ← readUnits rest
    return (unit :: units, after)
  | '\\' :: char :: rest => do
    let meant ← escaped? char
    let (units, after) ← readUnits rest
    return (meant.toNat :: units, after)
  | char :: rest => do
    let (units, after) ← readUnits rest
    return (char.toNat :: units, after)

/-- The character of one code unit that is not part of a pair. -/
def ofUnit (unit : Nat) : Char :=
  if 0xd800 ≤ unit ∧ unit < 0xe000 then Utf8.replacement else Char.ofNat unit

/-- Joins pairs of surrogates. -/
def joinUnits : List Nat → List Char
  | [] => []
  | [unit] => [ofUnit unit]
  | high :: low :: rest =>
    if 0xd800 ≤ high ∧ high < 0xdc00 ∧ 0xdc00 ≤ low ∧ low < 0xe000 then
      Char.ofNat (0x10000 + (high - 0xd800) * 0x400 + (low - 0xdc00)) :: joinUnits rest
    else ofUnit high :: joinUnits (low :: rest)

/-- The text that starts after an opening quote. -/
def readText (chars : List Char) : Option (String × List Char) := do
  let (units, after) ← readUnits chars
  return (String.ofList (joinUnits units), after)

/-- Reads digits, of which there has to be one. -/
def readDigits (chars : List Char) : Option (List Char × List Char) :=
  match chars.takeWhile Char.isDigit with
  | [] => none
  | digits => some (digits, chars.dropWhile Char.isDigit)

/-- The digits after a point, if there is one. -/
def readFraction : List Char → Option (Option (List Char) × List Char)
  | '.' :: rest => do
    let (digits, after) ← readDigits rest
    return (some digits, after)
  | chars => some (none, chars)

/-- The power of ten after an exponent mark, if there is one. -/
def readExponent : List Char → Option (Option Int × List Char)
  | mark :: rest =>
    if mark = 'e' || mark = 'E' then do
      let (isNegative, unsigned) := match rest with
        | '-' :: rest => (true, rest)
        | '+' :: rest => (false, rest)
        | rest => (false, rest)
      let (digits, after) ← readDigits unsigned
      let size : Int := Nat.ofDigitChars 10 digits 0
      return (some (if isNegative then -size else size), after)
    else some (none, mark :: rest)
  | [] => some (none, [])

/-- The double nearest to `digits` times a power of ten. -/
def nearestDouble (isNegative : Bool) (digits : Nat) (exponent : Int) : Double :=
  let magnitude := Float.ofScientific digits (exponent < 0) exponent.natAbs
  match Double.ofBits magnitude.toBits with
  | .finite _ significand power => .finite isNegative significand power
  | .infinite _ => .infinite isNegative
  | .nan => .nan

/-- Reads a number without its sign. -/
def readNumber (isNegative : Bool) (chars : List Char) : Option (Value × List Char) := do
  let (whole, rest) ← readDigits chars
  let (fraction?, rest) ← readFraction rest
  let (exponent?, rest) ← readExponent rest
  let fraction := fraction?.getD []
  let digits := Nat.ofDigitChars 10 (whole ++ fraction) 0
  if fraction?.isNone && exponent?.isNone then
    return (.int (if isNegative then -digits else digits), rest)
  else
    return (.float (nearestDouble isNegative digits (exponent?.getD 0 - fraction.length)), rest)

mutual

/-- Reads a value, and returns what follows it.  Every step into a value and every step
along one costs one of the budget. -/
def readValue (budget : Nat) (chars : List Char) : Option (Value × List Char) :=
  match budget, chars.dropWhile isSpace with
  | budget + 1, '\x7b' :: rest =>
    match rest.dropWhile isSpace with
    | '\x7d' :: after => some (.mapping [], after)
    | _ => do
      let (fields, after) ← readFields budget rest
      return (.mapping (Fields.ofList fields), after)
  | budget + 1, '[' :: rest =>
    match rest.dropWhile isSpace with
    | ']' :: after => some (.array [], after)
    | _ => do
      let (items, after) ← readItems budget rest
      return (.array items, after)
  | _, '"' :: rest => do
    let (content, after) ← readText rest
    return (.text content, after)
  | _, 't' :: 'r' :: 'u' :: 'e' :: rest => some (.bool true, rest)
  | _, 'f' :: 'a' :: 'l' :: 's' :: 'e' :: rest => some (.bool false, rest)
  | _, 'n' :: 'u' :: 'l' :: 'l' :: rest => some (.null, rest)
  | _, '-' :: rest => readNumber true rest
  | _, rest => readNumber false rest

/-- Reads the items of an array up to its closing bracket. -/
def readItems (budget : Nat) (chars : List Char) : Option (List Value × List Char) :=
  match budget with
  | 0 => none
  | budget + 1 => do
    let (item, rest) ← readValue budget chars
    match rest.dropWhile isSpace with
    | ',' :: rest =>
      let (items, after) ← readItems budget rest
      return (item :: items, after)
    | ']' :: after => return ([item], after)
    | _ => none

/-- Reads the entries of an object up to its closing brace. -/
def readFields (budget : Nat) (chars : List Char) :
    Option (List (String × Value) × List Char) :=
  match budget, chars.dropWhile isSpace with
  | budget + 1, '"' :: rest => do
    let (key, rest) ← readText rest
    match rest.dropWhile isSpace with
    | ':' :: rest =>
      let (value, rest) ← readValue budget rest
      match rest.dropWhile isSpace with
      | ',' :: rest =>
        let (fields, after) ← readFields budget rest
        return ((key, value) :: fields, after)
      | '\x7d' :: after => return ([(key, value)], after)
      | _ => none
    | _ => none
  | _, _ => none

end

/-- Reads a document. -/
def read? (text : String) : Option Value := do
  let (value, rest) ← readValue text.length text.toList
  if rest.all isSpace then return value else none

end Debundle.JsonText
