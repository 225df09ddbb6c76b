import TwinWall.Deploy.Failure
import TwinWall.Policy.File
import TwinWall.Topology.Resolve

/-! What can end a command, its text, and the status of the process then. A node that was not reached has
a status of its own. -/
namespace TwinWall

inductive Error where
  | file (error : FileError)
  | json (reason : String)
  | policy (error : Document.BuildError)
  | topology (error : Topology.ResolveError)
  | deploy (failure : Deploy.Failure)
  | refused (errors : List String)
  | internal (reason : String)

namespace Error

def message : Error → String
  | file e => "I/O error: " ++ e.message
  | json reason => "JSON error: " ++ reason
  | policy (.invalid l) => Policy.reportText l
  | policy (.assembly e) => "Assembly error: " ++ e.message
  | topology e => "Topology error: " ++ e.message
  | deploy f => f.message
  | refused l =>
    "Assembly error: nft --check rejected the document:\n" ++ "\n".intercalate l
  | internal reason => "Internal error: " ++ reason

def unreachedStatus : Nat := 3

def status : Error → Nat
  | deploy f => if f.trouble.isChannel then unreachedStatus else 1
  | _ => 1

end Error

namespace Policy

/-- The policy in a file. -/
def Spec.load (f : Files) (path : String) : Except Error Spec :=
  match f.readText path with
  | .error e => .error (.file e)
  | .ok text => (Spec.read text).mapError fun e => .json (e.describe text.toList)

end Policy
end TwinWall
