import TwinWall.Document.Clause

/-! The lines of rules and address mappings. A line has its clauses in the order of interfaces,
addresses, logging, and then protocol with ports and verdict. -/
namespace TwinWall
namespace Document

open Net Policy

def incomingClause (d : Direction) : List Clause :=
  ((d.incoming?.bind Interface.name?).map Clause.incoming).toList

def outgoingClause (d : Direction) : List Clause :=
  ((d.outgoing?.bind Interface.name?).map Clause.outgoing).toList

/-- A side that matches every address has no clause. -/
def addressClause (f : Family) (s : Side) : AddressMatch → List Clause
  | .any => []
  | .set n => [.address f s (.set n)]
  | .list l => [.address f s (.list l)]

/-- The ports of a transport, or the transport alone if there are none. -/
def portClause (t : Transport) : PortMatch → Clause
  | .set n => .port t (.set n)
  | .list [] => .protocol t
  | .list l => .port t (.list l)

/-- The chain that a rule jumps to, for a protocol that has one. -/
def jumpKind? (f : Family) : Protocol → Option JumpKind
  | .icmp => some (match f with | .v4 => .icmp | .v6 => .icmp6)
  | .dns => some .dns
  | .vpn => some .vpn
  | .any => none
  | .tcp => none
  | .udp => none

def jumpChain? (r : Rule) : Option JumpChain :=
  (jumpKind? r.version r.protocol).map (⟨·, r.action⟩)

def verdictClauses (r : Rule) : List Clause :=
  match jumpChain? r with
  | some c => [.jump c]
  | none =>
    match r.protocol with
    | .tcp => [portClause .tcp r.ports, .verdict r.action]
    | .udp => [portClause .udp r.ports, .verdict r.action]
    | _ => [.verdict r.action]

/-- The conditions that stand before logging. -/
def conditions (r : Rule) : List Clause :=
  incomingClause r.direction ++ outgoingClause r.direction ++
    addressClause r.version .source r.source ++ addressClause r.version .destination r.destination

def ruleLine (mark : String) (r : Rule) : Line :=
  conditions r ++ (if r.log then [.log mark] else []) ++ verdictClauses r

/-- An incoming packet gets the private address, and a leaving one the public address. -/
def mappingLine (m : Mapping) : Line :=
  match m.direction with
  | .destination =>
    (m.interface.map Clause.incoming).toList ++
      [.address .v4 .destination (.one (.v4 m.outside)), .destinationTo m.inside]
  | .source =>
    (m.interface.map Clause.outgoing).toList ++
      [.address .v4 .source (.one (.v4 m.inside)), .sourceTo m.outside]

/-- The rules of a chain by rising order, and by their place in the policy where that is equal. -/
def rulesOf (c : FilterChain) (rules : List Rule) : List Rule :=
  (rules.filter fun r => r.chain = c).mergeSort fun r s => r.order ≤ s.order

def chainLines (mark : String) (c : FilterChain) (rules : List Rule) : List Line :=
  (rulesOf c rules).map (ruleLine mark)

/-- The chains that some rule jumps to, each once. -/
def jumpChains (rules : List Rule) : List JumpChain :=
  JumpChain.all.filter fun c => rules.any fun r => jumpChain? r = some c

def mappingLines (d : MappingDirection) (mappings : List Mapping) : List Line :=
  (mappings.filter fun m => m.direction = d).map mappingLine

end Document
end TwinWall
