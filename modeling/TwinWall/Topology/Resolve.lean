import TwinWall.Files
import TwinWall.Json.Printer
import TwinWall.Json.Reader
import TwinWall.Net.Network
import TwinWall.Topology.Node

/-! The nodes as a topology file names them. The file gives a subnet, in which both nodes have a fixed
place, and tells which one of them is enabled. -/
namespace TwinWall
namespace Topology

open Json

inductive Flaw where
  | missing (key : String)
  | notBoolean (key : String) (found : Value)
  | badSubnet (found : Value)
  | bothEnabled
  | noneEnabled

inductive ResolveError where
  | unreadable (path : String) (error : FileError)
  | malformed (path : String) (reason : String)
  | flawed (path : String) (flaw : Flaw) (whole : Value)

def subnetKey : String := "ipv6_subnet"

def firstKey : String := "podnet_a_enabled"

def secondKey : String := "podnet_b_enabled"

def Flaw.message (path : String) : Flaw → String
  | missing key => "topology config " ++ path ++ " is missing `" ++ key ++ "`"
  | notBoolean key v =>
    "`" ++ key ++ "` in " ++ path ++ " must be true or false, got " ++ v.compact
  | badSubnet v =>
    "`" ++ subnetKey ++ "` in " ++ path ++ " is not a valid IPv6 network: " ++ v.compact
  | bothEnabled => "both " ++ firstKey ++ " and " ++ secondKey ++ " are true in " ++ path
  | noneEnabled => "neither " ++ firstKey ++ " nor " ++ secondKey ++ " is true in " ++ path

def ResolveError.message : ResolveError → String
  | unreadable path e => "cannot read topology config " ++ path ++ ": " ++ e.message
  | malformed path reason => "topology config " ++ path ++ " is not valid JSON: " ++ reason
  | flawed path flaw whole =>
    flaw.message path ++ "\nJSON dump of raw configuration:\n" ++ whole.pretty

def required (whole : Value) (key : String) : Except Flaw Value :=
  match whole.get? key with
  | some v => .ok v
  | none => .error (.missing key)

def flag (whole : Value) (key : String) : Except Flaw Bool := do
  let v ← required whole key
  match v.bool? with
  | some b => .ok b
  | none => .error (.notBoolean key v)

/-- The address of a subnet as written, without its length. -/
def stem (subnet : List Char) : List Char := subnet.takeWhile (· ≠ '/')

def firstSuffix : List Char := ['1', '0', ':', '0', ':', '2']

def secondSuffix : List Char := ['1', '0', ':', '0', ':', '3']

/-- The text of the address that begins like the subnet and ends in a suffix. -/
def host? (subnet suffix : List Char) : Option String :=
  (Net.Address.read? .v6 (stem subnet ++ suffix)).map (Net.Address.text .v6)

/-- Both hosts in a subnet. -/
def hosts? (subnet : List Char) : Option (String × String) := do
  let _ ← Net.Network.read? .v6 subnet
  let a ← host? subnet firstSuffix
  let b ← host? subnet secondSuffix
  some (a, b)

def hosts (whole : Value) : Except Flaw (String × String) := do
  let v ← required whole subnetKey
  match v.string?.bind fun s => hosts? s.toList with
  | some p => .ok p
  | none => .error (.badSubnet v)

def ofValue (source : String) (whole : Value) : Except Flaw Topology := do
  let (a, b) ← hosts whole
  match ← flag whole firstKey, ← flag whole secondKey with
  | true, false => .ok ⟨source, a, b⟩
  | false, true => .ok ⟨source, b, a⟩
  | true, true => .error .bothEnabled
  | false, false => .error .noneEnabled

def ofText (path text : String) : Except ResolveError Topology :=
  match Json.read text with
  | .error f => .error (.malformed path (f.describe text.toList))
  | .ok v => (ofValue path v).mapError fun e => .flawed path e v

def load (files : Files) (path : String) : Except ResolveError Topology :=
  match files.readText path with
  | .error e => .error (.unreadable path e)
  | .ok text => ofText path text

end Topology
end TwinWall
