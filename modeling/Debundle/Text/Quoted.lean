import Debundle.Text.Hex
import Debundle.Text.Printable

/-!
# Quoted text

Messages show a text in quotes, so that its ends and its invisible characters can be
seen.  Single quotes are used, unless the text holds single quotes and no double
ones.
-/

namespace Debundle.Quoted

/-- The quote that a text is put in. -/
def quoteFor (text : List Char) : Char :=
  if text.contains '\'' && !text.contains '"' then '"' else '\''

/-- One character of a text in quotes `quote`. -/
def encodeChar (quote char : Char) : List Char :=
  if char == quote || char == '\\' then ['\\', char]
  else if char == '\n' then ['\\', 'n']
  else if char == '\r' then ['\\', 'r']
  else if char == '\t' then ['\\', 't']
  else if CharSet.printables.contains char then [char]
  else if char.toNat < 0x100 then '\\' :: 'x' :: hexDigits 2 char.toNat
  else if char.toNat < 0x10000 then '\\' :: 'u' :: hexDigits 4 char.toNat
  else '\\' :: 'U' :: hexDigits 8 char.toNat

def encode (text : List Char) : List Char :=
  let quote := quoteFor text
  quote :: (text.flatMap (encodeChar quote) ++ [quote])

/-- `text` in quotes. -/
def quoted (text : String) : String :=
  String.ofList (encode text.toList)

end Debundle.Quoted
