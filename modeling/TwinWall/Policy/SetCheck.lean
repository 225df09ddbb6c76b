import TwinWall.Policy.Field

/-! Checking of named sets and of address mappings. -/
namespace TwinWall
namespace Policy

open Json Net

/-- Six octets in hexadecimal, with a colon or a hyphen between them. -/
def isMac : List Char → Bool
  | [a, b] => Text.isHex a && Text.isHex b
  | a :: b :: c :: r => Text.isHex a && Text.isHex b && (c == ':' || c == '-') && isMac r
  | _ => false

def isMacAddress (s : String) : Bool := s.length = 17 && isMac s.toList

/-- Lower case, with colons. -/
def macText (s : String) : String :=
  String.ofList (s.toList.map fun c => if c = '-' then ':' else c.toLower)

namespace NamedSet

def addressOf (type : SetType) (family : Family) (v : Value) : Except Defect SetElement :=
  match networkOf v with
  | .error d => .error d
  | .ok (raw, n) =>
    if n.family = family then .ok (.network n) else .error (.setVersion raw n.family type)

def elementOf (type : SetType) (v : Value) : Except Defect SetElement :=
  match type with
  | .ipv4Addr => addressOf .ipv4Addr .v4 v
  | .ipv6Addr => addressOf .ipv6Addr .v6 v
  | .inetService => (portOf v).map .port
  | .etherAddr =>
    match v with
    | .string s => if isMacAddress s then .ok (.mac (macText s)) else .error (.badMac s)
    | v => .error (.notMac v)

def itemsOf (m : Members) : Except Defect (List Value) :=
  match requiredList m "elements" with
  | .ok [] => .error (.emptyList "elements")
  | r => r

def nameOf (m : Members) : Except Defect String :=
  requiredString m "name" >>= fun s => (checkIdentifier "set name" s).mapError .name

def typeOf (m : Members) : Except Defect SetType :=
  requiredWord SetType.ofText? "one of ipv4_addr, ipv6_addr, inet_service, ether_addr" m "type"

/-- Elements are looked at once their type and their list are known. -/
def contentOf (m : Members) : Checked (SetType × List SetElement) := do
  let (type, items) ← Checked.both (Checked.one (typeOf m)) (Checked.one (itemsOf m))
  let elements ← Checked.all (items.map fun v => (elementOf type v).mapError (.inField "elements"))
  .ok (type, elements)

def ofMembers (m : Members) : Checked NamedSet :=
  (Checked.both (Checked.one (nameOf m)) (contentOf m)).map fun (name, type, elements) =>
    { name, type, elements }

def check (v : Value) : Checked NamedSet := Checked.one (membersOf "set" v) >>= ofMembers

end NamedSet

namespace Mapping

def networkOf (m : Members) (field : String) : Except Defect (Network .v4) := do
  let raw ← requiredString m field
  match Subnet.parse raw with
  | .error e => .error (.inField field (.network e))
  | .ok (.v4 n) => .ok n
  | .ok (.v6 _) => .error (.mappingVersion field raw)

def outsideOf (m : Members) : Except Defect (Network .v4) := do
  let n ← networkOf m "public"
  if n.isPrivate then .error (.privateOutside n) else .ok n

def insideOf (m : Members) : Except Defect (Network .v4) := do
  let n ← networkOf m "private"
  if n.isPrivate then .ok n else .error (.publicInside n)

/-- Only the empty text stands for no interface. -/
def interfaceOf (m : Members) : Except Defect (Option String) :=
  match given? m "iface" with
  | none => .ok none
  | some (.string s) =>
    if s = "" then .ok none
    else ((checkInterface s).map some).mapError fun e => .inField "iface" (.name e)
  | some v => .error (.notStringOrNull "iface" v)

def ofMembers (m : Members) : Checked Mapping :=
  let direction :=
    requiredWord MappingDirection.ofText? "dnat, snat, destination-nat or source-nat" m "direction"
  let parts :=
    Checked.both (Checked.one direction) <|
    Checked.both (Checked.one (outsideOf m)) <|
    Checked.both (Checked.one (insideOf m)) (Checked.one (interfaceOf m))
  parts.map fun (direction, outside, inside, interface) => { direction, outside, inside, interface }

def check (v : Value) : Checked Mapping := Checked.one (membersOf "nat" v) >>= ofMembers

end Mapping

namespace Target

/-- Both names of a target, or all that is wrong with them. -/
def check (t : Target) : Except (List NameError) Unit :=
  match checkIdentifier "namespace" t.namespaceName, checkIdentifier "table" t.table with
  | .ok _, .ok _ => .ok ()
  | .error e, .ok _ => .error [e]
  | .ok _, .error e => .error [e]
  | .error d, .error e => .error [d, e]

end Target
end Policy
end TwinWall
