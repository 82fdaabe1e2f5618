import Debundle.Command.Console
import Debundle.Event

/-!
# Logs

Events are shown to the user in colour, and kept in a log file with the time and the
part of the program that they come from.
-/

namespace Debundle

def Level.colour : Level → Colour
  | .debug => .blue
  | .info => .green
  | .warning => .yellow
  | .error => .red

namespace Event

/-- The line that a user sees. -/
def shownLine (event : Event) : String :=
  event.level.colour.wrap (event.level.word ++ ": " ++ event.message) ++ "\n"

/-- The line in a log file. -/
def keptLine (time : String) (event : Event) : String :=
  time ++ " - " ++ event.origin ++ " - " ++ event.level.word ++ " - " ++ event.message ++ "\n"

/-- What a user sees of the events: all of them, or only the urgent ones. -/
def shown (showsAll : Bool) (events : List Event) : String :=
  String.join ((events.filter fun event => showsAll || event.level.isUrgent).map shownLine)

/-- What a log file holds of the events. -/
def kept (time : String) (events : List Event) : String :=
  String.join (events.map (keptLine time))

end Event

end Debundle
