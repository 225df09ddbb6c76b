import TwinWall.Json.Printer
import TwinWall.Policy.Name
import TwinWall.Policy.Rule

/-! What can be wrong with one entry of a policy. Checks go on after a defect, so an entry that is
refused comes with all its defects in order. -/
namespace TwinWall
namespace Policy

open Json Net

inductive Defect where
  | notObject (kind : String) (got : Value)
  | required (field : String)
  | notString (field : String) (got : Value)
  | notList (field : String) (got : Value)
  | notBool (field : String) (got : Value)
  | notInteger (field : String) (got : Value)
  | notStringOrNull (field : String) (got : Value)
  | badWord (field allowed got : String)
  | badVersion (got : Value)
  | emptyList (field : String)
  | notAlone (field special : String)
  | notAddress (got : Value)
  | notPort (got : Value)
  | notPortNumber (got : Number)
  | notMac (got : Value)
  | badMac (got : String)
  | network (error : NetworkError)
  | port (error : PortError)
  | name (error : NameError)
  | ruleVersion (field raw : String) (found wanted : Family)
  | setVersion (raw : String) (found : Family) (wanted : SetType)
  | mappingVersion (field raw : String)
  | unattached (incoming outgoing : Value)
  | privateOutside (network : Network .v4)
  | publicInside (network : Network .v4)
  | inField (field : String) (defect : Defect)

namespace Defect

def tick (s : String) : String := "`" ++ s ++ "`"

def message : Defect → String
  | notObject kind v => kind ++ " must be an object, got " ++ v.compact
  | required f => tick f ++ " is required"
  | notString f v => tick f ++ " must be a string, got " ++ v.compact
  | notList f v => tick f ++ " must be a list, got " ++ v.compact
  | notBool f v => tick f ++ " must be true or false, got " ++ v.compact
  | notInteger f v => tick f ++ " must be an integer, got " ++ v.compact
  | notStringOrNull f v => tick f ++ " must be a string or null, got " ++ v.compact
  | badWord f allowed s => tick f ++ " must be " ++ allowed ++ ", got \"" ++ s ++ "\""
  | badVersion v => "`version` must be 4 or 6, got " ++ v.compact
  | emptyList f => tick f ++ " must not be empty"
  | notAlone f special =>
    tick f ++ ": when " ++ special ++ " is used only one item is allowed per list"
  | notAddress v => v.compact ++ " is not an address string"
  | notPort v => v.compact ++ " is not a port or port range"
  | notPortNumber n => n.text ++ " is not a port number between 1 and 65535"
  | notMac v => v.compact ++ " is not a MAC address string"
  | badMac s => "\"" ++ s ++ "\" is not a valid MAC address"
  | network e => e.message
  | port e => e.message
  | name e => e.message
  | ruleVersion f raw found wanted =>
    "IP version mismatch in " ++ tick f ++ ": \"" ++ raw ++ "\" is " ++ found.label ++
      " but the rule is " ++ wanted.label
  | setVersion raw found wanted =>
    "IP version mismatch: \"" ++ raw ++ "\" is " ++ found.label ++ " but set type is " ++ wanted.text
  | mappingVersion f raw =>
    "IP version mismatch in " ++ tick f ++ ": \"" ++ raw ++ "\" is IPv6, NAT mappings are IPv4 only"
  | unattached i o =>
    "Invalid rule type: iiface:" ++ i.compact ++ ";oiface:" ++ o.compact ++
      ", at least one interface must be set"
  | privateOutside n => "`public`: " ++ n.text ++ " is in private (RFC 1918) address space"
  | publicInside n => "`private`: " ++ n.text ++ " is not in private (RFC 1918) address space"
  | inField f d => tick f ++ ": " ++ d.message

end Defect

abbrev Checked (α : Type) := Except (List Defect) α

namespace Checked

def defects {α : Type} : Checked α → List Defect
  | .ok _ => []
  | .error l => l

/-- Both results, or the defects of both in order. -/
def both {α β : Type} : Checked α → Checked β → Checked (α × β)
  | .ok x, .ok y => .ok (x, y)
  | .ok _, .error e => .error e
  | .error d, .ok _ => .error d
  | .error d, .error e => .error (d ++ e)

theorem both_eq_ok {α β : Type} {a : Checked α} {b : Checked β} {p : α × β} :
    both a b = .ok p ↔ a = .ok p.1 ∧ b = .ok p.2 := by
  obtain ⟨x, y⟩ := p
  cases a <;> cases b <;> simp [both]

/-- A check that finds at most one defect. -/
def one {α : Type} : Except Defect α → Checked α
  | .ok x => .ok x
  | .error d => .error [d]

theorem one_eq_ok {α : Type} {a : Except Defect α} {x : α} : one a = .ok x ↔ a = .ok x := by
  cases a <;> simp [one]

/-- All results, or all defects in order. -/
def all {α : Type} : List (Except Defect α) → Checked (List α)
  | [] => .ok []
  | .ok x :: r =>
    match all r with
    | .ok xs => .ok (x :: xs)
    | .error e => .error e
  | .error d :: r => .error (d :: defects (all r))

theorem all_eq_ok {α : Type} {l : List (Except Defect α)} {xs : List α} :
    all l = .ok xs ↔ l = xs.map .ok := by
  induction l generalizing xs with
  | nil => cases xs <;> simp [all]
  | cons a r ih =>
    cases a with
    | error d => cases xs <;> simp [all]
    | ok x =>
      cases h : all r with
      | error e => cases xs <;> simp [all, h, ← ih]
      | ok ys => cases xs <;> simp [all, h, ← ih]

/-- Whoever is refused is told why. -/
def Told {α : Type} (a : Checked α) : Prop := a ≠ .error []

theorem told_one {α : Type} (a : Except Defect α) : Told (one a) := by
  cases a <;> simp [Told, one]

theorem told_both {α β : Type} {a : Checked α} {b : Checked β} (ha : Told a) (hb : Told b) :
    Told (both a b) := by
  cases a <;> cases b <;> simp_all [Told, both]

theorem told_all {α : Type} (l : List (Except Defect α)) : Told (all l) := by
  induction l with
  | nil => simp [Told, all]
  | cons a r ih =>
    cases a with
    | error d => simp [Told, all]
    | ok x =>
      cases h : all r with
      | error e => simpa [Told, all, h] using ih
      | ok ys => simp [Told, all, h]

end Checked
end Policy
end TwinWall
