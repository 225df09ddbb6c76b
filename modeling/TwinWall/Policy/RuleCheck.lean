import TwinWall.Policy.Field

/-! Checking of a rule. Its nine parts are checked one by one, and their defects come in the order of
action, version, protocol, source, destination, ports, interfaces, logging and order. -/
namespace TwinWall
namespace Policy
namespace Rule

open Json Net

def versionOf (m : Members) : Except Defect Family :=
  let family (v : Value) (n : Option Int) : Except Defect Family :=
    if n = some 4 then .ok .v4 else if n = some 6 then .ok .v6 else .error (.badVersion v)
  match given? m "version" with
  | none => .error (.required "version")
  | some (.number n) => family (.number n) n.toInt?
  | some (.string s) => family (.string s) (Decimal.signed? (Text.trimmed s.toList))
  | some v => .error (.badVersion v)

def isSpecial (v : Value) : Bool := v.string?.any fun s => s == anyWord || isSetUse s

/-- One item of a list of addresses, which has to be of the rule's version where that is known. -/
def addressOf (field : String) (version : Option Family) (v : Value) : Except Defect Subnet :=
  match networkOf v with
  | .error d => .error (.inField field d)
  | .ok (raw, n) =>
    match version with
    | some f => if n.family = f then .ok n else .error (.ruleVersion field raw n.family f)
    | none => .ok n

/-- Every address, a set, or a list of addresses. The first two stand alone. -/
def addressesOf (version : Option Family) (m : Members) (field : String) : Checked AddressMatch :=
  match requiredList m field with
  | .error d => .error [d]
  | .ok [] => .error [.emptyList field]
  | .ok (v :: r) =>
    if (v :: r).any isSpecial then
      match v, r with
      | .string s, [] =>
        if s = anyWord then .ok .any else Checked.one ((setName field s).map .set)
      | _, _ => .error [.notAlone field "`any` or `@set`"]
    else (Checked.all ((v :: r).map (addressOf field version))).map .list

def isPortSet (v : Value) : Bool := v.string?.any isSetUse

/-- A set, which stands alone, or a list of ports, which may be missing. -/
def portsOf (m : Members) : Checked PortMatch :=
  match given? m "port" with
  | none => .ok (.list [])
  | some (.array l) =>
    if l.any isPortSet then
      match l with
      | [.string s] => Checked.one ((setName "port" s).map .set)
      | _ => .error [.notAlone "port" "`@set`"]
    else
      (Checked.all (l.map fun v => (portOf v).mapError (.inField "port"))).map .list
  | some v => .error [.notList "port" v]

/-- Texts of an interface that the rule does not hang on. -/
def unsetWords : List String := ["", "none"]

def interfaceOf (m : Members) (field : String) : Except Defect (Option Interface) :=
  match given? m field with
  | none => .ok none
  | some (.string s) =>
    if s ∈ unsetWords then .ok none
    else if s = anyWord then .ok (some .any)
    else ((checkInterface s).map fun n => some (.named n)).mapError fun e => .inField field (.name e)
  | some v => .error (.notStringOrNull field v)

def directionOf (m : Members) : Checked Direction :=
  match Checked.both (Checked.one (interfaceOf m "iiface")) (Checked.one (interfaceOf m "oiface")) with
  | .error e => .error e
  | .ok (some i, none) => .ok (.input i)
  | .ok (none, some o) => .ok (.output o)
  | .ok (some i, some o) => .ok (.forward i o)
  | .ok (none, none) =>
    .error [.unattached ((m.get? "iiface").getD .null) ((m.get? "oiface").getD .null)]

def logOf (m : Members) : Except Defect Bool :=
  match given? m "log" with
  | none => .ok false
  | some (.bool b) => .ok b
  | some v => .error (.notBool "log" v)

def orderOf (m : Members) : Except Defect Int :=
  match given? m "order" with
  | none => .ok 0
  | some (.number n) =>
    match n.toInt? with
    | some k => .ok k
    | none => .error (.notInteger "order" (.number n))
  | some v => .error (.notInteger "order" v)

def ofMembers (m : Members) : Checked Rule :=
  let action := requiredWord Action.ofText? "accept or drop" m "action"
  let version := versionOf m
  let protocol := requiredWord Protocol.ofText? "one of any, tcp, udp, icmp, dns, vpn" m "protocol"
  let parts :=
    Checked.both (Checked.one action) <|
    Checked.both (Checked.one version) <|
    Checked.both (Checked.one protocol) <|
    Checked.both (addressesOf version.toOption m "source") <|
    Checked.both (addressesOf version.toOption m "destination") <|
    Checked.both (portsOf m) <|
    Checked.both (directionOf m) <|
    Checked.both (Checked.one (logOf m)) (Checked.one (orderOf m))
  parts.map fun (action, version, protocol, source, destination, ports, direction, log, order) =>
    { version, source, destination, protocol, ports, action, log, direction, order }

def check (v : Value) : Checked Rule := Checked.one (membersOf "rule" v) >>= ofMembers

end Rule
end Policy
end TwinWall
