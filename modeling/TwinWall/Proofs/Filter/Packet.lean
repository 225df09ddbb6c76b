import TwinWall.Document.Table

/-! Packets, what a policy decides on them, and what a table does with them. A table is evaluated line by
line; the evaluation has no result where a set, a chain or a word of it is unknown. -/
namespace TwinWall
namespace Filter

open Net Policy Document

/-- The addresses of a packet. -/
inductive Header where
  | v4 (source destination : Address .v4)
  | v6 (source destination : Address .v6)
deriving DecidableEq

/-- What a packet carries, with its destination port or its type. -/
inductive Payload where
  | tcp (port : Nat)
  | udp (port : Nat)
  | esp
  | icmp (type : Nat)
  | icmp6 (type : Nat)
  | other (protocol : Nat)
deriving DecidableEq

structure Packet where
  incoming : Option String
  outgoing : Option String
  header : Header
  payload : Payload
deriving DecidableEq

namespace Header

def family : Header → Family
  | v4 _ _ => .v4
  | v6 _ _ => .v6

/-- Whether the address on a side is in a network. -/
def lies (h : Header) (s : Side) (n : Subnet) : Bool :=
  match h, s, n with
  | v4 a _, .source, .v4 n => n.contains a
  | v4 _ b, .destination, .v4 n => n.contains b
  | v6 a _, .source, .v6 n => n.contains a
  | v6 _ b, .destination, .v6 n => n.contains b
  | _, _, _ => false

theorem family_of_lies {h : Header} {s : Side} {n : Subnet} (hl : h.lies s n = true) :
    h.family = n.family := by
  cases h <;> cases n <;> cases s <;> first | rfl | cases hl

end Header

namespace Payload

def carries : Payload → Transport → Bool
  | tcp _, .tcp => true
  | udp _, .udp => true
  | esp, .esp => true
  | _, _ => false

def port? : Payload → Transport → Option Nat
  | tcp n, .tcp => some n
  | udp n, .udp => some n
  | _, _ => none

def icmp? : Payload → Family → Option Nat
  | icmp n, .v4 => some n
  | icmp6 n, .v6 => some n
  | _, _ => none

end Payload

/-- Whether an element of a set is a network that holds the address on a side. -/
def coversAddress (h : Header) (s : Side) : SetElement → Bool
  | .network n => h.lies s n
  | _ => false

def coversPort (n : Nat) : SetElement → Bool
  | .port e => e.holds n
  | _ => false

/-- The first element with the least key. -/
def least? {α : Type} (key : α → Int) : List α → Option α
  | [] => none
  | a :: l =>
    match least? key l with
    | some b => if key b < key a then some b else some a
    | none => some a

section Policy

variable (p : Ruleset) (k : Packet)

/-- A side without a name takes every interface. -/
def interfaceAdmits (actual : Option String) : Interface → Bool
  | .any => true
  | .named n => actual = some n

def directionAdmits : Direction → Bool
  | .input i => interfaceAdmits k.incoming i
  | .output o => interfaceAdmits k.outgoing o
  | .forward i o => interfaceAdmits k.incoming i && interfaceAdmits k.outgoing o

def addressAdmits (s : Side) : AddressMatch → Bool
  | .any => true
  | .set n => (p.set? n).any fun d => d.elements.any (coversAddress k.header s)
  | .list l => l.any (k.header.lies s)

/-- No ports stand for all ports. -/
def portAdmits (n : Nat) : PortMatch → Bool
  | .set name => (p.set? name).any fun d => d.elements.any (coversPort n)
  | .list l => l.isEmpty || l.any (·.holds n)

/-- Destination unreachable, replies and requests of echo, and time exceeded; in the second family
requests of echo, queries of listeners, and the discovery of routers and neighbours. -/
def icmpTypes : Family → List Nat
  | .v4 => [3, 0, 8, 11]
  | .v6 => [128, 130, 133, 134, 135, 136]

def protocolAdmits (r : Rule) : Bool :=
  match r.protocol with
  | .any => true
  | .tcp => (k.payload.port? .tcp).any fun n => portAdmits p n r.ports
  | .udp => (k.payload.port? .udp).any fun n => portAdmits p n r.ports
  | .icmp => k.header.family = r.version && (k.payload.icmp? r.version).any (· ∈ icmpTypes r.version)
  | .dns => k.payload.port? .udp = some 53 || k.payload.port? .tcp = some 53
  | .vpn => (k.payload.port? .udp).any (· ∈ [500, 4500]) || k.payload.carries .esp

/-- Whether a rule decides on a packet of its chain. -/
def admits (r : Rule) : Bool :=
  directionAdmits k r.direction && addressAdmits p k .source r.source &&
    addressAdmits p k .destination r.destination && protocolAdmits p k r

/-- Of the rules of a chain that decide on a packet, the first with the least order. -/
def deciding? (c : FilterChain) : Option Rule :=
  least? Rule.order (p.rules.filter fun r => r.chain = c && admits p k r)

def verdict (c : FilterChain) : Action :=
  match deciding? p k c with
  | some r => r.action
  | none => p.defaults.get c

end Policy

section Table

variable (t : Table) (k : Packet)

def set? (name : String) : Option NamedSet := t.sets.find? (·.name = name)

def chain? (name : String) : Option Chain := t.chains.find? (·.name = name)

/-- The type of the sets that addresses of a family are looked up in. -/
def addressType : Family → SetType
  | .v4 => .ipv4Addr
  | .v6 => .ipv6Addr

/-- Whether the address on a side is among those of an operand. A set has to be one of the family. -/
def addressIn? (f : Family) (s : Side) : Operand Subnet → Option Bool
  | .set n => do
    let d ← set? t n
    if d.type = addressType f then some (d.elements.any (coversAddress k.header s)) else none
  | .one n => some (k.header.lies s n)
  | .list l => some (l.any (k.header.lies s))

def portIn? (n : Nat) : Operand PortEntry → Option Bool
  | .set name => do
    let d ← set? t name
    if d.type = .inetService then some (d.elements.any (coversPort n)) else none
  | .one e => some (e.holds n)
  | .list l => some (l.any (·.holds n))

/-- The numbers of the types that have a name. -/
def icmpNumbers : Family → List (String × Nat)
  | .v4 =>
    [("echo-reply", 0), ("destination-unreachable", 3), ("echo-request", 8), ("time-exceeded", 11)]
  | .v6 =>
    [("echo-request", 128), ("mld-listener-query", 130), ("nd-router-solicit", 133),
      ("nd-router-advert", 134), ("nd-neighbor-solicit", 135), ("nd-neighbor-advert", 136)]

/-- Whether a clause lets the packet through to the next clause. Verdicts, jumps and the rewriting of
addresses are no conditions. -/
def holds? : Clause → Option Bool
  | .incoming i => some (k.incoming = some i)
  | .outgoing o => some (k.outgoing = some o)
  | .address f s o => (addressIn? t k f s o).map fun b => k.header.family = f && b
  | .log _ => some true
  | .protocol p => some (k.payload.carries p)
  | .port p o =>
    match k.payload.port? p with
    | some n => portIn? t n o
    | none => some false
  | .icmpType f names => do
    let numbers ← names.mapM fun w => (icmpNumbers f).lookup w
    some (k.header.family = f && (k.payload.icmp? f).any (· ∈ numbers))
  | _ => none

/-- What a line decides, if anything. A jump takes the line's place until the chain that is called
is exhausted. -/
def lineVerdict? (called : String → Option (Option Action)) : Line → Option (Option Action)
  | [] => some none
  | .verdict a :: _ => some (some a)
  | .jump c :: r => do
    match ← called c.name with
    | some a => some (some a)
    | none => lineVerdict? called r
  | c :: r => do
    if ← holds? t k c then lineVerdict? called r else some none

/-- The first line that decides. -/
def linesVerdict? (called : String → Option (Option Action)) :
    List Line → Option (Option Action)
  | [] => some none
  | l :: ls => do
    match ← lineVerdict? t k called l with
    | some a => some (some a)
    | none => linesVerdict? called ls

/-- What a chain decides with so many chains below each other at most. -/
def chainVerdict? : Nat → String → Option (Option Action)
  | 0, _ => none
  | depth + 1, name => do
    let c ← chain? t name
    linesVerdict? t k (chainVerdict? depth) c.lines

def depthLimit : Nat := 16

/-- The hook that a filter chain is for, and the name of the chain. -/
def hookOf : FilterChain → Hook × String
  | .input => (.input, "input")
  | .forward => (.forward, "forward")
  | .output => (.output, "output")

/-- What becomes of a packet at the hook of a filter chain. -/
def tableVerdict? (c : FilterChain) : Option Action := do
  let chain ← chain? t (hookOf c).2
  let entry ← chain.entry
  if entry.kind = .filter ∧ entry.hook = (hookOf c).1 then
    let decided ← chainVerdict? t k depthLimit (hookOf c).2
    some (decided.getD entry.policy)
  else none

end Table

end Filter
end TwinWall
