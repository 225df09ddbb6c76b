import TwinWall.Topology.Node

/-! What a node answers to a command. A command that ran and failed has an output like any other; only
a node that was not reached gives none. -/
namespace TwinWall
namespace Remote

structure Output where
  exit : Int
  stdout : String
  stderr : String
deriving DecidableEq, Repr

def Output.succeeded (o : Output) : Bool := o.exit = 0

/-- Why a node was not reached, with the status of the connection if there is one. -/
structure ChannelFailure where
  host : String
  code : Option Int
  message : String
deriving DecidableEq, Repr

def ChannelFailure.text (f : ChannelFailure) : String :=
  "channel failure reaching " ++ f.host ++ ": " ++ f.message

abbrev Reply := Except ChannelFailure Output

structure Call where
  node : Node
  command : String
deriving DecidableEq, Repr

/-- The answer to a call, after the calls that were made before it. -/
abbrev Executor := List Call → Call → Reply

end Remote
end TwinWall
