import Debundle.Text.Hex

/-!
# String literals

A string literal is written in single quotes.  Quotes, backslashes, the control
characters of ASCII and the two line separators are escaped; every other character
stands for itself, control characters beyond ASCII included.
-/

namespace Debundle.StringLiteral

/-- The letter that follows the backslash where a character has a short escape. -/
def shortEscape? : Char → Option Char
  | '\\' => some '\\'
  | '\'' => some '\''
  | '\n' => some 'n'
  | '\r' => some 'r'
  | '\t' => some 't'
  | '\x08' => some 'b'
  | '\x0c' => some 'f'
  | '\x0b' => some 'v'
  | _ => none

/-- One character of a literal. -/
def encodeChar (char : Char) : List Char :=
  match shortEscape? char with
  | some letter => ['\\', letter]
  | none =>
    if char.toNat = 0x2028 ∨ char.toNat = 0x2029 then '\\' :: 'u' :: hexDigits 4 char.toNat
    else if char.toNat < 0x20 ∨ char.toNat = 0x7f then '\\' :: 'x' :: hexDigits 2 char.toNat
    else [char]

def encode (text : List Char) : List Char :=
  '\'' :: (text.flatMap encodeChar ++ ['\''])

/-- The literal that stands for `text`. -/
def literal (text : String) : String :=
  String.ofList (encode text.toList)

end Debundle.StringLiteral
