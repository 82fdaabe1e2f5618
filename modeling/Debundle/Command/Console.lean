/-!
# Status lines

Lines on a terminal are coloured with escape sequences; elsewhere they are plain.
-/

namespace Debundle

inductive Colour where
  | red | green | yellow | blue | magenta | cyan
  deriving DecidableEq

namespace Colour

def code : Colour → Nat
  | .red => 31
  | .green => 32
  | .yellow => 33
  | .blue => 34
  | .magenta => 35
  | .cyan => 36

def ofName? : String → Option Colour
  | "red" => some .red
  | "green" => some .green
  | "yellow" => some .yellow
  | "blue" => some .blue
  | "magenta" => some .magenta
  | "cyan" => some .cyan
  | _ => none

/-- Wraps a text in the escape sequences of a colour. -/
def wrap (colour : Colour) (text : String) : String :=
  "\x1b[" ++ toString colour.code ++ "m" ++ text ++ "\x1b[0m"

end Colour

structure Console where
  isColoured : Bool

namespace Console

def paint (console : Console) (text : String) (colour : Colour) : String :=
  if console.isColoured then colour.wrap text else text

/-- A status line. -/
def line (console : Console) (text : String) (colour? : Option Colour) : String :=
  (match colour? with
    | some colour => console.paint text colour
    | none => text) ++ "\n"

end Console

end Debundle
