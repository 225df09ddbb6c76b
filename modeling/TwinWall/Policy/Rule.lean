import TwinWall.Net.Network
import TwinWall.Policy.Port

/-! Checked rules, sets and address mappings. A rule hangs on an interface on at least one side, which
decides the chain it belongs to. -/
namespace TwinWall
namespace Policy

open Net

inductive Protocol where
  | any
  | tcp
  | udp
  | icmp
  | dns
  | vpn
deriving DecidableEq, Repr

inductive Action where
  | accept
  | drop
deriving DecidableEq, Repr, Inhabited

inductive AddressMatch where
  | any
  | set (name : String)
  | list (networks : List Subnet)
deriving DecidableEq

inductive PortMatch where
  | set (name : String)
  | list (entries : List PortEntry)
deriving DecidableEq

/-- A side that a rule hangs on, which need not name its interface. -/
inductive Interface where
  | any
  | named (name : String)
deriving DecidableEq, Repr

inductive Direction where
  | input (incoming : Interface)
  | output (outgoing : Interface)
  | forward (incoming outgoing : Interface)
deriving DecidableEq, Repr

inductive FilterChain where
  | input
  | forward
  | output
deriving DecidableEq, Repr

inductive SetType where
  | ipv4Addr
  | ipv6Addr
  | inetService
  | etherAddr
deriving DecidableEq, Repr

inductive SetElement where
  | network (network : Subnet)
  | port (entry : PortEntry)
  | mac (text : String)
deriving DecidableEq

structure NamedSet where
  name : String
  type : SetType
  elements : List SetElement
deriving DecidableEq

inductive MappingDirection where
  | destination
  | source
deriving DecidableEq, Repr

/-- One public network for one private network. -/
structure Mapping where
  direction : MappingDirection
  outside : Network .v4
  inside : Network .v4
  interface : Option String
deriving DecidableEq

structure Rule where
  version : Family
  source : AddressMatch
  destination : AddressMatch
  protocol : Protocol
  ports : PortMatch
  action : Action
  log : Bool
  direction : Direction
  order : Int
deriving DecidableEq

/-- The verdict of each filter chain on what none of its rules decides. -/
structure Defaults where
  input : Action := .drop
  forward : Action := .drop
  output : Action := .drop
deriving DecidableEq, Repr, Inhabited

structure Ruleset where
  rules : List Rule
  sets : List NamedSet
  mappings : List Mapping
  defaults : Defaults
deriving DecidableEq

/-- Where a table goes, and the priority that its chains share. -/
structure Target where
  namespaceName : String
  table : String
  priority : Int
deriving DecidableEq, Repr

namespace Protocol

def text : Protocol → String
  | any => "any"
  | tcp => "tcp"
  | udp => "udp"
  | icmp => "icmp"
  | dns => "dns"
  | vpn => "vpn"

def all : List Protocol := [any, tcp, udp, icmp, dns, vpn]

def ofText? (s : String) : Option Protocol := all.find? (·.text = s)

end Protocol

namespace Action

def text : Action → String
  | accept => "accept"
  | drop => "drop"

def all : List Action := [accept, drop]

def ofText? (s : String) : Option Action := all.find? (·.text = s)

end Action

namespace SetType

def text : SetType → String
  | ipv4Addr => "ipv4_addr"
  | ipv6Addr => "ipv6_addr"
  | inetService => "inet_service"
  | etherAddr => "ether_addr"

def all : List SetType := [ipv4Addr, ipv6Addr, inetService, etherAddr]

def ofText? (s : String) : Option SetType := all.find? (·.text = s)

@[simp] theorem ofText?_text (t : SetType) : ofText? t.text = some t := by cases t <;> decide

/-- The type of a set of addresses of a family. -/
def ofFamily : Family → SetType
  | .v4 => ipv4Addr
  | .v6 => ipv6Addr

/-- Whether elements may be ranges. -/
def hasIntervals (t : SetType) : Bool := t ≠ etherAddr

end SetType

namespace MappingDirection

def text : MappingDirection → String
  | destination => "dnat"
  | source => "snat"

def names : List (String × MappingDirection) :=
  [("dnat", destination), ("destination-nat", destination), ("snat", source),
    ("source-nat", source)]

def ofText? (s : String) : Option MappingDirection := names.lookup s

end MappingDirection

namespace FilterChain

def text : FilterChain → String
  | input => "input"
  | forward => "forward"
  | output => "output"

def all : List FilterChain := [input, forward, output]

end FilterChain

namespace Interface

def name? : Interface → Option String
  | any => none
  | named s => some s

end Interface

namespace Direction

def chain : Direction → FilterChain
  | input _ => .input
  | output _ => .output
  | forward _ _ => .forward

def incoming? : Direction → Option Interface
  | input i => some i
  | forward i _ => some i
  | output _ => none

def outgoing? : Direction → Option Interface
  | output o => some o
  | forward _ o => some o
  | input _ => none

end Direction

namespace AddressMatch

def set? : AddressMatch → Option String
  | set n => some n
  | _ => none

end AddressMatch

namespace PortMatch

def set? : PortMatch → Option String
  | set n => some n
  | list _ => none

end PortMatch

namespace Rule

def chain (r : Rule) : FilterChain := r.direction.chain

/-- The sets that a rule uses, each with the type that the use requires: source, destination, ports. -/
def setUses (r : Rule) : List (String × SetType) :=
  (r.source.set?.map (·, SetType.ofFamily r.version)).toList ++
    (r.destination.set?.map (·, SetType.ofFamily r.version)).toList ++
    (r.ports.set?.map (·, SetType.inetService)).toList

end Rule

namespace Defaults

def get (d : Defaults) : FilterChain → Action
  | .input => d.input
  | .forward => d.forward
  | .output => d.output

end Defaults

namespace Ruleset

def set? (p : Ruleset) (name : String) : Option NamedSet := p.sets.find? (·.name = name)

end Ruleset

namespace Target

/-- What is put in front of the log lines of a table. -/
def logMark (t : Target) : String := "Namespace_" ++ t.namespaceName ++ "_Table_" ++ t.table

end Target
end Policy
end TwinWall
