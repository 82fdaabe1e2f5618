import Debundle.Text.Content
import Debundle.Tree.Join
import Debundle.Tree.Key

/-!
# Formatting

The formatter of module sources is a parameter of the library.  This module fixes what
it is asked for, and how its answer becomes the text of a module file.
-/

namespace Debundle

structure FormatOptions where
  /-- The number of spaces per level, if one is known. -/
  indent : Option Int := some 2
  endsWithNewline : Bool := true
  /-- Whether empty lines are kept. -/
  keepsNewlines : Bool := true
  /-- How many line ends in a row are kept. -/
  mostNewlines : Nat := 2

/-- Formats a source.  What it does with a source that is no text is up to the
formatter. -/
abbrev Formatter := FormatOptions → Value → Except Fault Content

/-- A formatted source text. -/
structure Formatted where
  content : Content
  isChanged : Bool

/-- Ends a content with a newline, unless it ends so already. -/
def endLine (content : Content) : Content :=
  if content.getLast? = some (.scalar '\n') then content else content ++ [.scalar '\n']

namespace Formatter

/-- Formats a source.  The result ends with a newline. -/
def format (formatter : Formatter) (indent : Option Int) (source : Value) :
    Except Fault Formatted := do
  let content := endLine (← formatter { indent } source)
  return { content, isChanged := !content.isText || .text content.text != source }

/-- The content of a module file: the formatted source and one empty line. -/
def moduleContent (formatter : Formatter) (indent : Option Int) (source : Value) :
    Except Fault Content := do
  return (← formatter.format indent source).content ++ [.scalar '\n']

end Formatter

end Debundle
