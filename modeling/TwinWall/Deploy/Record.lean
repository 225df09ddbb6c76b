import TwinWall.Deploy.Step
import TwinWall.Remote.Reply

/-! The record of steps that succeeded, in the order in which they were taken, over both nodes. -/
namespace TwinWall
namespace Deploy

/-- A step that succeeded, with all that the node gave for it. -/
structure Done where
  node : Node
  step : Step
  output : Remote.Output
deriving DecidableEq, Repr

abbrev Record := List Done

namespace Record

def count (r : Record) (s : Step) : Nat := r.countP (·.step = s)

def ofHost (r : Record) (host : String) : Record := r.filter (·.node.host = host)

/-- Nodes in the order of their first steps, each once. -/
def nodes (r : Record) : List Node := (r.map Done.node).eraseDups

end Record
end Deploy
end TwinWall
