import TwinWall.Deploy.Run
import TwinWall.Diff.Lines

/-! Listing of the table on both nodes. Both are always asked, and nothing is changed on either. -/
namespace TwinWall
namespace Deploy

open Remote

/-- What a node answered when asked for its table. -/
structure Listing where
  node : Node
  reply : Reply

namespace Listing

def table? (l : Listing) : Option String :=
  match l.reply with
  | .ok o => if o.succeeded then some o.stdout else none
  | .error _ => none

def message (t : Policy.Target) (l : Listing) : String :=
  let subject :=
    " table " ++ t.table ++ " in namespace " ++ t.namespaceName ++ " from " ++ l.node.text
  match l.reply with
  | .ok o =>
    if o.succeeded then "Read" ++ subject
    else
      "Failed to read" ++ subject ++ ": exit code " ++ Decimal.ofInt o.exit ++ ": " ++
        Text.trim o.stderr
  | .error f => "Failed to read" ++ subject ++ ": " ++ f.text

end Listing

/-- The tables of both nodes by host. -/
structure Survey where
  listings : List Listing

namespace Survey

def succeeded (s : Survey) : Bool := s.listings.all (·.table?.isSome)

/-- The last table that came from a host. -/
def table? (s : Survey) (host : String) : Option String :=
  (s.listings.reverse.filter (·.node.host = host)).findSome? Listing.table?

def messages (s : Survey) (t : Policy.Target) : List String := s.listings.map (Listing.message t)

/-- The difference from the enabled node's table to the disabled node's. There is none unless both are
known. -/
def difference? (s : Survey) (t : Topology) : Option String := do
  let a ← s.table? t.enabledHost
  let b ← s.table? t.disabledHost
  Diff.lineDiff? a b

end Survey

namespace Site

def list (s : Site) (t : Policy.Target) (n : Node) (calls : List Call) : Listing × List Call :=
  let call : Call := ⟨n, (s.plan t "").command .listing⟩
  (⟨n, s.executor calls call⟩, calls ++ [call])

def read (s : Site) (t : Policy.Target) (calls : List Call) : Survey × List Call :=
  let (a, calls) := s.list t s.topology.enabled calls
  let (b, calls) := s.list t s.topology.disabled calls
  (⟨[a, b]⟩, calls)

end Site
end Deploy
end TwinWall
