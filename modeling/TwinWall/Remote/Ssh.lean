import TwinWall.Decimal.Natural
import TwinWall.Program
import TwinWall.Remote.Reply
import TwinWall.Text.Blank

/-! Commands on a node by way of an ssh client, which gives the status of the command, or 255 if it did
not reach the node. -/
namespace TwinWall
namespace Remote

structure Ssh where
  program : String
  user : String
  timeout : Nat
deriving DecidableEq, Repr

namespace Ssh

def unreached : Nat := 255

def call (s : Ssh) (c : Call) : Program.Call :=
  { program := s.program
    arguments :=
      ["-o", "BatchMode=yes", "-o", "ConnectTimeout=" ++ s.timeout.repr,
        s.user ++ "@" ++ c.node.host, c.command]
    input := "" }

/-- What an ending of the client says. Nothing is written to it, so it does not end unfed. -/
def reply (s : Ssh) (host : String) : Program.Ending → Reply
  | .notStarted reason | .unfed reason =>
    .error ⟨host, none, "failed to spawn " ++ s.program ++ ": " ++ reason⟩
  | .killed _ _ _ _ => .error ⟨host, none, "ssh terminated by signal"⟩
  | .exited status out err =>
    let stderr := Text.Utf8.mend err
    if status = unreached then .error ⟨host, some status, Text.trim stderr⟩
    else .ok ⟨status, Text.Utf8.mend out, stderr⟩

/-- Calls of programs that come of some calls of nodes, after earlier ones. -/
def calls (s : Ssh) (before : List Program.Call) (l : List Call) : List Program.Call :=
  before ++ (l.map s.call).filter Program.Call.isPassable

/-- Reaches nodes by way of the client, after earlier calls of programs. -/
def executor (s : Ssh) (behaviour : Program.Behaviour) (before : List Program.Call) : Executor :=
  fun earlier c =>
    s.reply c.node.host (Program.start behaviour (s.calls before earlier) (s.call c)).1

end Ssh
end Remote
end TwinWall
