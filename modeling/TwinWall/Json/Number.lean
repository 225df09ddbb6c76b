import TwinWall.Decimal.Natural
import TwinWall.Decimal.Shortest

/-! A number of a JSON text is a whole number of 64 bits, with or without sign, or else a binary
number of 53 digits. -/
namespace TwinWall
namespace Json

open Decimal

inductive Number where
  | whole (value : Int)
  | binary (value : Binary64)
deriving DecidableEq, Repr

/-- The places of a first digit for which plain notation is used. -/
structure Layout where
  lowest : Int
  beyond : Int

def layout : Layout := ⟨-5, 16⟩

def zeros (n : Nat) : String := String.ofList (List.replicate n '0')

/-- Puts a point behind the first `n` digits. -/
def pointAfter (n : Nat) (digits : List Char) : String :=
  String.ofList (digits.take n) ++ "." ++ String.ofList (digits.drop n)

/-- Plain notation always has a digit behind its point; the other has a point only between digits. -/
def Layout.write (l : Layout) (d : Digits) : String :=
  let s := d.digits.repr
  let place := d.exponent + s.length - 1
  if l.lowest ≤ place ∧ place < l.beyond then
    if 0 ≤ d.exponent then s ++ zeros d.exponent.toNat ++ ".0"
    else if 0 ≤ place then pointAfter (place.toNat + 1) s.toList
    else "0." ++ zeros ((-place).toNat - 1) ++ s
  else
    let head := if s.length = 1 then s else pointAfter 1 s.toList
    head ++ "e" ++ (if place < 0 then "-" else "+") ++ place.natAbs.repr

namespace Number

def text : Number → String
  | .whole n => ofInt n
  | .binary x => (if x.negative then "-" else "") ++ layout.write (shortest x)

def greatestSigned : Int := 9223372036854775807

def greatestUnsigned : Nat := 18446744073709551615

/-- Binary numbers from here on count as no whole number. -/
def wholeBound : Nat := 9000000000000000

/-- The whole number that this is; a binary number may be one if it is small enough. -/
def toInt? : Number → Option Int
  | .whole n => if n ≤ greatestSigned then some n else none
  | .binary x => x.toInt?.filter fun n => n.natAbs < wholeBound

@[simp] theorem toInt?_whole {n : Int} (h : n ≤ greatestSigned) : toInt? (.whole n) = some n := by
  simp [toInt?, h]

/-- Takes digits while the value fits 64 bits, and gives the value with the number of digits left. -/
def take : Nat → List Nat → Nat × Nat
  | n, [] => (n, 0)
  | n, d :: ds =>
    if greatestUnsigned < 10 * n + d then (n, ds.length + 1) else take (10 * n + d) ds

/-- The number that digits, digits behind the point and an exponent stand for, if it is not too
large. Digits that do not fit 64 bits count as zeros before the point and are left out behind it. -/
def ofParts (negative : Bool) (digits fraction : List Nat) (exponent : Int) : Option Number :=
  let (n, left) := take 0 digits
  let (m, lost) := take n fraction
  let e := (left : Int) - (fraction.length - lost : Nat) + exponent
  (Binary64.ofDecimal m e).map fun x => .binary (if negative then x.neg else x)

/-- The number that digits alone stand for. Minus zero is a binary number. -/
def ofDigits (negative : Bool) (digits : List Nat) : Option Number :=
  let n := valueFrom 0 digits
  if !negative && n ≤ greatestUnsigned then some (.whole n)
  else if negative && 0 < n && n ≤ greatestSigned.toNat + 1 then some (.whole (-n))
  else ofParts negative digits [] 0

end Number
end Json
end TwinWall
