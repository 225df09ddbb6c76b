import TwinWall.Document.Assemble
import TwinWall.Nft.Diagnostics
import TwinWall.Program

/-! Checking of a document by an nft on this machine, which reads it and loads nothing. The status
alone decides, and a refused document always comes with a reason. -/
namespace TwinWall
namespace Nft

def program : String := "nft"

def checkCall (program : String) (document : String) : Program.Call :=
  ⟨program, ["--check", "--file", "-"], document⟩

inductive Verdict where
  | accepted
  | refused (errors : List String)
  | notRun (reason : String)
deriving DecidableEq, Repr

def refusal (ended : String) (stderr : List UInt8) : Verdict :=
  match errors (Text.Utf8.mend stderr) with
  | [] => .refused ["nft exited with " ++ ended]
  | l => .refused l

def verdict (program : String) : Program.Ending → Verdict
  | .notStarted reason => .notRun ("Failed to spawn " ++ program ++ ": " ++ reason)
  | .unfed reason => .notRun ("Failed to write to nft stdin: " ++ reason)
  | .killed _ err signal dumped => refusal (Program.signalText signal dumped) err
  | .exited status _ err =>
    if status = 0 then .accepted else refusal ("exit status: " ++ status.repr) err

/-- Whether nft takes a document, and the calls that there are then. -/
def check (behaviour : Program.Behaviour) (before : List Program.Call) (program : String)
    (d : Document) : Verdict × List Program.Call :=
  let (ending, calls) := Program.start behaviour before (checkCall program d.text)
  (verdict program ending, calls)

end Nft
end TwinWall
