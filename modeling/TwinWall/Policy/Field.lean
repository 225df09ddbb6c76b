import TwinWall.Policy.Defect

/-! Checks of single fields, shared by the entries of a policy. A field that is null counts as
missing. -/
namespace TwinWall
namespace Policy

open Json Net

/-- The field's value, unless it is missing or null. -/
def given? (m : Members) (field : String) : Option Value :=
  match m.get? field with
  | some .null => none
  | v => v

def requiredString (m : Members) (field : String) : Except Defect String :=
  match given? m field with
  | none => .error (.required field)
  | some (.string s) => .ok s
  | some v => .error (.notString field v)

def requiredList (m : Members) (field : String) : Except Defect (List Value) :=
  match given? m field with
  | none => .error (.required field)
  | some (.array l) => .ok l
  | some v => .error (.notList field v)

/-- A word that stands for a value. -/
def requiredWord {α : Type} (ofText? : String → Option α) (allowed : String) (m : Members)
    (field : String) : Except Defect α := do
  let s ← requiredString m field
  match ofText? s with
  | some x => .ok x
  | none => .error (.badWord field allowed s)

def membersOf (kind : String) : Value → Except Defect Members
  | .object m => .ok m
  | v => .error (.notObject kind v)

/-- Stands for every address, or for every interface. -/
def anyWord : String := "any"

def isSetUse (s : String) : Bool := s.toList.head? = some '@'

/-- The name behind the mark of a set. -/
def setName (field s : String) : Except Defect String :=
  (checkIdentifier (Defect.tick field ++ " set reference") (String.ofList (s.toList.drop 1))).mapError
    .name

/-- A port entry is a text, or a number for a single port. -/
def portOf : Value → Except Defect PortEntry
  | .string s => (PortEntry.parse s).mapError .port
  | .number n =>
    match n.toInt? with
    | some (.ofNat p) =>
      if p ≤ maxPort then ((checkPort p).map PortEntry.single).mapError .port
      else .error (.notPortNumber n)
    | _ => .error (.notPortNumber n)
  | v => .error (.notPort v)

/-- An address or network in a text. -/
def networkOf : Value → Except Defect (String × Subnet)
  | .string s => ((Subnet.parse s).map fun n => (s, n)).mapError .network
  | v => .error (.notAddress v)

end Policy
end TwinWall
