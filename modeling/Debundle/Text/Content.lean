import Debundle.Text.Hex

/-!
# Content of files

What is to be written to a file is a sequence of code points.  Surrogates are code points
but no characters, and content that holds one has no encoding.
-/

namespace Debundle

/-- A code point is a character or one of the surrogates, which start at `U+D800`. -/
inductive CodePoint where
  | scalar (char : Char)
  | surrogate (offset : Fin 0x800)
  deriving DecidableEq

namespace CodePoint

def char? : CodePoint → Option Char
  | .scalar char => some char
  | .surrogate _ => none

def surrogate? : CodePoint → Option (Fin 0x800)
  | .scalar _ => none
  | .surrogate offset => some offset

def isSurrogate (point : CodePoint) : Bool :=
  point.surrogate?.isSome

end CodePoint

abbrev Content := List CodePoint

/-- Why content has no encoding: the first surrogates in a row, and how many code points
there are before them. -/
structure EncodingFault where
  position : Nat
  surrogates : List (Fin 0x800)
  deriving DecidableEq

def EncodingFault.message (fault : EncodingFault) : String :=
  "'utf-8' codec can't encode " ++ place ++ ": surrogates not allowed"
where
  place : String :=
    match fault.surrogates with
    | [offset] =>
      "character '\\u" ++ String.ofList (hexDigits 4 (0xD800 + offset.val)) ++ "' in position "
        ++ toString fault.position
    | surrogates =>
      "characters in position " ++ toString fault.position ++ "-"
        ++ toString (fault.position + surrogates.length - 1)

namespace Content

def ofText (text : String) : Content :=
  text.toList.map .scalar

/-- The text of the characters, which is all of the content if there is no surrogate. -/
def text (content : Content) : String :=
  String.ofList (content.filterMap CodePoint.char?)

def isText (content : Content) : Bool :=
  content.all fun point => !point.isSurrogate

/-- Why the content has no encoding, if it has none. -/
def fault (content : Content) : EncodingFault where
  position := (content.takeWhile fun point => !point.isSurrogate).length
  surrogates :=
    ((content.dropWhile fun point => !point.isSurrogate).takeWhile CodePoint.isSurrogate).filterMap
      CodePoint.surrogate?

/-- The bytes of the content. -/
def encode (content : Content) : Except EncodingFault ByteArray :=
  if content.isText then .ok content.text.toUTF8 else .error content.fault

end Content

end Debundle
