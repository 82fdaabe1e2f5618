/-!
# Paths

A path is a root and the steps from there.  Written paths are normalised only as far
as no directory has to be looked at: empty steps and steps that stay where they are
fall away, steps to the parent directory are kept.
-/

namespace Debundle

/-- A path.  The root of a relative path is empty. -/
structure Path where
  root : String := ""
  steps : List String := []
  deriving DecidableEq

/-- A place in the file system: the names from the top directory down. -/
abbrev Location := List String

namespace Path

/-- The step to the parent directory. -/
def parentStep : String := ".."

/-- The pieces of a text between slashes. -/
def pieces : List Char → List (List Char)
  | [] => [[]]
  | char :: rest =>
    if char = '/' then [] :: pieces rest
    else
      match pieces rest with
      | [] => [[char]]
      | piece :: others => (char :: piece) :: others

/-- The root of a written path.  Two slashes are a root of their own, three or more are
one. -/
def rootOf (chars : List Char) : String :=
  match chars.takeWhile (· == '/') with
  | [] => ""
  | [_, _] => "//"
  | _ => "/"

/-- Reads a written path. -/
def ofText (text : String) : Path where
  root := rootOf text.toList
  steps := ((pieces text.toList).filter fun piece => piece != [] && piece != ['.']).map
    String.ofList

/-- Writes a path; one that does not lead away is written as a point. -/
def toText (path : Path) : String :=
  if path.root.isEmpty && path.steps.isEmpty then "."
  else path.root ++ "/".intercalate path.steps

/-- The path `text`, taken from the directory `path`.  An absolute path does not depend
on the directory. -/
def join (path : Path) (text : String) : Path :=
  let other := ofText text
  if other.root.isEmpty then { path with steps := path.steps ++ other.steps } else other

/-- The directory that holds what the path leads to. -/
def parent (path : Path) : Path :=
  { path with steps := path.steps.dropLast }

/-- The last step. -/
def name (path : Path) : String :=
  path.steps.getLast?.getD ""

/-- Goes one step without looking at any directory. -/
def follow (location : Location) (step : String) : Location :=
  if step = parentStep then location.dropLast else location ++ [step]

/-- The place that a path starts from. -/
def start (path : Path) (current : Location) : Location :=
  if path.root.isEmpty then current else []

/-- The place that a path leads to if all directories on the way are there. -/
def resolve (path : Path) (current : Location) : Location :=
  path.steps.foldl follow (path.start current)

/-- The places that a path passes, from its start to its end. -/
def waypoints (path : Path) (current : Location) : List Location :=
  (List.range (path.steps.length + 1)).map fun count =>
    (path.steps.take count).foldl follow (path.start current)

/-- No file system takes a path with this character. -/
def holdsNul (path : Path) : Bool :=
  path.steps.any fun step => step.toList.contains '\x00'

end Path

/-- The absolute path of a place. -/
def Location.toPath (location : Location) : Path where
  root := "/"
  steps := location

end Debundle
