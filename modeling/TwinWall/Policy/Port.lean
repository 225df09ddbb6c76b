import TwinWall.Decimal.Natural
import TwinWall.Text.Blank

/-! A port entry is one port or a range of ports with both its ends. No port is zero. -/
namespace TwinWall
namespace Policy

inductive PortEntry where
  | single (port : Nat)
  | range (first last : Nat)
deriving DecidableEq, Repr

inductive PortError where
  | zero
  | unreadable (raw : String)
  | reversed (first last : Nat)
  | shape (raw : String)
deriving DecidableEq, Repr

def maxPort : Nat := 65535

namespace PortError

def message : PortError → String
  | zero => "Port must be between 1 and 65535"
  | unreadable raw => "\"" ++ raw ++ "\" is not a port number between 1 and 65535"
  | reversed a b => "Port range " ++ a.repr ++ "-" ++ b.repr ++ " starts after it ends"
  | shape raw => "\"" ++ raw ++ "\" is not a port or a two-part port range"

end PortError

/-- A port that is not zero. -/
def checkPort (n : Nat) : Except PortError Nat := if n = 0 then .error .zero else .ok n

/-- The first end is looked at before the last, and both before their order. -/
def checkRange (a b : Nat) : Except PortError (Nat × Nat) := do
  let a ← checkPort a
  let b ← checkPort b
  if b < a then .error (.reversed a b) else .ok (a, b)

/-- A port in digits between blanks. -/
def portNumber (raw : List Char) : Except PortError Nat :=
  match (Decimal.unsigned? (Text.trimmed raw)).filter (· ≤ maxPort) with
  | some n => checkPort n
  | none => .error (.unreadable (String.ofList raw))

namespace PortEntry

def text : PortEntry → String
  | single p => p.repr
  | range a b => a.repr ++ "-" ++ b.repr

def parse (raw : String) : Except PortError PortEntry :=
  match raw.toList.splitOn '-' with
  | [s] => (portNumber s).map single
  | [s, t] => do
    let a ← portNumber s
    let b ← portNumber t
    let r ← checkRange a b
    .ok (range r.1 r.2)
  | _ => .error (.shape raw)

def holds : PortEntry → Nat → Bool
  | single p, n => p = n
  | range a b, n => a ≤ n && n ≤ b

end PortEntry
end Policy
end TwinWall
