/-! The two nodes that hold the same table. One of them is enabled and is always served first. -/
namespace TwinWall

inductive Role where
  | enabled
  | disabled
deriving DecidableEq, Repr

def Role.text : Role → String
  | enabled => "enabled"
  | disabled => "disabled"

structure Node where
  host : String
  role : Role
deriving DecidableEq, Repr

def Node.text (n : Node) : String := n.host ++ " (" ++ n.role.text ++ ")"

/-- Hosts of the two nodes, and where they are known from. -/
structure Topology where
  source : String
  enabledHost : String
  disabledHost : String
deriving DecidableEq, Repr

namespace Topology

def enabled (t : Topology) : Node := ⟨t.enabledHost, .enabled⟩

def disabled (t : Topology) : Node := ⟨t.disabledHost, .disabled⟩

def nodes (t : Topology) : List Node := [t.enabled, t.disabled]

theorem enabled_ne_disabled (t : Topology) : t.enabled ≠ t.disabled := by
  simp [enabled, disabled]

end Topology
end TwinWall
