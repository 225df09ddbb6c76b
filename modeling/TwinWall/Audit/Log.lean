import TwinWall.Audit.Event
import TwinWall.Files

/-! The audit log is a file with an event a line. Lines that are no event are passed over when it is
read. -/
namespace TwinWall
namespace Audit
namespace Log

/-- The line of an event, with its end. -/
def line (e : Event) : String := e.toJson.compact ++ "\n"

def append (f : Files) (path : String) (e : Event) : Except FileError Files :=
  f.append path (line e)

/-- Events among the last lines, newest first. -/
def newest (count : Nat) (text : String) : List Event :=
  ((Text.lines text).reverse.take count).filterMap fun l => (Event.read l).toOption

def recent (f : Files) (path : String) (count : Nat) : Except FileError (List Event) :=
  (f.readText path).map (newest count)

end Log
end Audit
end TwinWall
