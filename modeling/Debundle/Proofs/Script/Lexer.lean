import Debundle.Proofs.Script.Derivation
import Debundle.Text.CharSet

/-!
# Lexemes of a text

A text falls into lexemes from left to right, each as long as possible.  Names, numbers,
strings and regular expressions are recognised by one automaton, marks by a table.  Whether a
slash starts a regular expression depends on what came before.

The lexemes are those of ECMAScript 2017.  Templates are left to the scanner of whole texts.
-/

namespace Debundle.Lexer

def spaces : CharSet where
  ranges := [(0x9, 0x9), (0xB, 0xC), (0x20, 0x20), (0xA0, 0xA0), (0x1680, 0x1680),
    (0x2000, 0x200A), (0x202F, 0x202F), (0x205F, 0x205F), (0x3000, 0x3000), (0xFEFF, 0xFEFF)]

def lineBreaks : CharSet where
  ranges := [(0xA, 0xA), (0xD, 0xD), (0x2028, 0x2029)]

/-- A character of a name.  Beyond ASCII every character that is not blank counts. -/
def isWordChar (char : Char) : Bool :=
  char.isAlphanum || char == '$' || char == '_' ||
    (0x80 ≤ char.toNat && !spaces.contains char && !lineBreaks.contains char)

/-- The value of a digit in bases up to sixteen. -/
def digitValue? (char : Char) : Option Nat :=
  if char.isDigit then some (char.toNat - '0'.toNat)
  else if 'a' ≤ char ∧ char ≤ 'f' then some (char.toNat - 'a'.toNat + 10)
  else if 'A' ≤ char ∧ char ≤ 'F' then some (char.toNat - 'A'.toNat + 10)
  else none

def isDigitIn (base : Nat) (char : Char) : Bool :=
  (digitValue? char).any (· < base)

/-- What has been seen of a lexeme that is no mark. -/
inductive Scan where
  | word
  | zero
  /-- Digits below eight behind a zero, which take no fraction. -/
  | octal
  | integer
  /-- A point without digits before it. -/
  | point
  | fraction | exponentMark | exponentSign | exponent
  | radixMark (base : Nat)
  | radix (base : Nat)
  | quoted (quote : Char)
  | escaped (quote : Char)
  /-- A line break inside a string may be two characters. -/
  | carriage (quote : Char)
  | closed
  | slash | pattern | patternEscape | charClass | classEscape | flags
  deriving DecidableEq

namespace Scan

def nextExponent (char : Char) : Option Scan :=
  if char == 'e' || char == 'E' then some .exponentMark else none

def nextDecimal (char : Char) : Option Scan :=
  if char == '.' then some .fraction else nextExponent char

/-- Behind a zero stands the mark of a base, more digits, or a fraction. -/
def nextZero (char : Char) : Option Scan :=
  if char == 'x' || char == 'X' then some (.radixMark 16)
  else if char == 'o' || char == 'O' then some (.radixMark 8)
  else if char == 'b' || char == 'B' then some (.radixMark 2)
  else if isDigitIn 8 char then some .octal
  else if char.isDigit then some .integer
  else nextDecimal char

def nextQuoted (quote char : Char) : Option Scan :=
  if char == quote then some .closed
  else if char == '\\' then some (.escaped quote)
  else if char == '\n' || char == '\r' then none
  else some (.quoted quote)

/-- What may stand anywhere in a regular expression outside of brackets. -/
def nextPattern (char : Char) : Option Scan :=
  if lineBreaks.contains char then none
  else if char == '\\' then some .patternEscape
  else if char == '[' then some .charClass
  else some .pattern

def nextClass (char : Char) : Option Scan :=
  if lineBreaks.contains char then none
  else if char == '\\' then some .classEscape
  else if char == ']' then some .pattern
  else some .charClass

/-- One more character of a lexeme. -/
def next (scan : Scan) (char : Char) : Option Scan :=
  match scan with
  | .word => if isWordChar char then some .word else none
  | .zero => nextZero char
  | .octal =>
    if isDigitIn 8 char then some .octal else if char.isDigit then some .integer else none
  | .integer => if char.isDigit then some .integer else nextDecimal char
  | .point => if char.isDigit then some .fraction else none
  | .fraction => if char.isDigit then some .fraction else nextExponent char
  | .exponentMark =>
    if char == '+' || char == '-' then some .exponentSign
    else if char.isDigit then some .exponent else none
  | .exponentSign | .exponent => if char.isDigit then some .exponent else none
  | .radixMark base | .radix base => if isDigitIn base char then some (.radix base) else none
  | .quoted quote => nextQuoted quote char
  | .escaped quote => some (if char == '\r' then .carriage quote else .quoted quote)
  | .carriage quote => if char == '\n' then some (.quoted quote) else nextQuoted quote char
  | .closed => none
  | .slash => if char == '*' || char == '/' then none else nextPattern char
  | .pattern => if char == '/' then some .flags else nextPattern char
  | .patternEscape => if lineBreaks.contains char then none else some .pattern
  | .charClass => nextClass char
  | .classEscape => if lineBreaks.contains char then none else some .charClass
  | .flags => if isWordChar char then some .flags else none

def isNumber : Scan → Bool
  | .zero | .octal | .integer | .fraction | .exponent | .radix _ => true
  | _ => false

/-- A number, a string or a regular expression may end here. -/
def isLiteral (scan : Scan) : Bool :=
  scan.isNumber || scan == .closed || scan == .flags

/-- The lexeme that ends here. -/
def lexeme? (scan : Scan) (chars : List Char) : Option Lexeme :=
  if scan = .word then some (.word (String.ofList chars))
  else if scan.isLiteral then some (.literal (String.ofList chars))
  else none

/-- Whether a lexeme may end here and be followed by `char`.  A number is not followed by
the characters of a name. -/
def endsBefore (scan : Scan) (char : Char) : Bool :=
  (scan.next char).isNone && !(scan.isNumber && isWordChar char)

end Scan

/-- What is left of a text behind its first lexeme. -/
structure Cut where
  lexeme : Lexeme
  rest : List Char

/-- Goes on with a lexeme as long as possible. -/
def Scan.cut? (scan : Scan) (seen : List Char) : List Char → Option Cut
  | [] => (scan.lexeme? seen).map fun lexeme => ⟨lexeme, []⟩
  | char :: rest =>
    match scan.next char with
    | some after => after.cut? (seen ++ [char]) rest
    | none =>
      if scan.endsBefore char then
        (scan.lexeme? seen).map fun lexeme => ⟨lexeme, char :: rest⟩
      else none

/-- What the next lexeme is expected to be. -/
inductive Goal where
  | operand
  | operator
  /-- The name behind a point. -/
  | property
  deriving DecidableEq

/-- The automaton behind the first character of a lexeme, unless it is a mark. -/
def scan? (goal : Goal) (char : Char) (rest : List Char) : Option Scan :=
  if char == '0' then some .zero
  else if char.isDigit then some .integer
  else if isWordChar char then some .word
  else if char == '\'' || char == '"' then some (.quoted char)
  else if char == '.' && rest.head?.any Char.isDigit then some .point
  else if char == '/' && goal == .operand then some .slash
  else none

/-- What starts a comment. -/
def commentMarks : List String :=
  ["<!--", "//", "/*"]

/-- The marks of the language and those of comments, long ones first. -/
def marks : List String :=
  ["<!--", ">>>=", "===", "!==", "**=", "<<=", ">>=", ">>>", "...",
    "//", "/*", "=>", "==", "!=", "<=", ">=", "&&", "||", "++", "--", "**", "<<", ">>",
    "+=", "-=", "*=", "/=", "%=", "&=", "|=", "^=",
    "(", ")", "[", "]", "\x7b", "\x7d", ";", ",", ".", "<", ">", "+", "-", "*", "/", "%",
    "&", "|", "^", "!", "~", "?", ":", "="]

/-- The longest mark at the start of a text. -/
def longestMark? (chars : List Char) : Option String :=
  marks.find? fun mark => mark.toList.isPrefixOf chars

def markCut? (chars : List Char) : Option Cut :=
  (longestMark? chars).bind fun mark =>
    if mark ∈ commentMarks then none
    else some ⟨.mark mark, chars.drop mark.toList.length⟩

/-- The first lexeme of a text that does not start with a space. -/
def cut? (goal : Goal) (char : Char) (rest : List Char) : Option Cut :=
  match scan? goal char rest with
  | some scan => scan.cut? [char] rest
  | none => markCut? (char :: rest)

/-- The reserved words behind which an expression has ended. -/
def endWords : List String :=
  "this" :: constantWords

/-- What is expected behind a lexeme. -/
def Goal.after (goal : Goal) : Lexeme → Goal
  | .literal _ => .operator
  | .word text =>
    if goal = .property ∨ text ∉ reservedWords ∨ text ∈ endWords then .operator else .operand
  | .mark text =>
    if text = ")" ∨ text = "]" then .operator
    else if text = "++" ∨ text = "--" then goal
    else if text = "." then .property
    else .operand

theorem Scan.length_cut_le {scan : Scan} {seen chars : List Char} {cut : Cut}
    (hcut : scan.cut? seen chars = some cut) : cut.rest.length ≤ chars.length := by
  fun_induction Scan.cut? scan seen chars with
  | case1 scan seen =>
    obtain ⟨lexeme, -, rfl⟩ := Option.map_eq_some_iff.1 hcut
    exact Nat.zero_le _
  | case2 scan seen char rest after _ ih => exact Nat.le_succ_of_le (ih hcut)
  | case3 scan seen char rest _ _ =>
    obtain ⟨lexeme, -, rfl⟩ := Option.map_eq_some_iff.1 hcut
    exact Nat.le_refl _
  | case4 => cases hcut

theorem length_markCut_lt {char : Char} {rest : List Char} {cut : Cut}
    (hcut : markCut? (char :: rest) = some cut) : cut.rest.length < (char :: rest).length := by
  have hmarks : ∀ mark ∈ marks, 0 < mark.toList.length := by decide
  obtain ⟨mark, hmark, hrest⟩ := Option.bind_eq_some_iff.1 hcut
  have hlength := hmarks mark (List.mem_of_find?_eq_some hmark)
  split at hrest
  · cases hrest
  · cases hrest
    rw [List.length_drop, List.length_cons]
    omega

theorem length_cut_lt {goal : Goal} {char : Char} {rest : List Char} {cut : Cut}
    (hcut : cut? goal char rest = some cut) : cut.rest.length < (char :: rest).length := by
  unfold cut? at hcut
  split at hcut
  · exact Nat.lt_succ_of_le (Scan.length_cut_le hcut)
  · exact length_markCut_lt hcut

/-- The automaton behind a text that is one lexeme and no mark. -/
def scanned? (goal : Goal) : List Char → Option Scan
  | [] => none
  | char :: rest => (scan? goal char rest).bind fun scan => rest.foldlM Scan.next scan

/-- A name or a reserved word. -/
def isWord (text : String) : Bool :=
  match text.toList with
  | [] => false
  | char :: rest => isWordChar char && !char.isDigit && rest.all isWordChar

/-- A literal of one lexeme. -/
def isLiteral (text : String) : Bool :=
  constantWords.contains text || (scanned? .operand text.toList).any Scan.isLiteral

/-- A literal that is a number. -/
def isNumber (text : String) : Bool :=
  (scanned? .operand text.toList).any Scan.isNumber

end Debundle.Lexer
