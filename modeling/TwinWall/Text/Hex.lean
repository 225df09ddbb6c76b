/-! Hexadecimal digits of either case, and pairs of them as octets. -/
namespace TwinWall
namespace Text

def hexValue? (c : Char) : Option Nat :=
  if c.isDigit then some (c.toNat - 48)
  else if 'a' ≤ c ∧ c ≤ 'f' then some (c.toNat - 87)
  else if 'A' ≤ c ∧ c ≤ 'F' then some (c.toNat - 55)
  else none

def isHex (c : Char) : Bool := (hexValue? c).isSome

theorem hexValue?_digitChar {n : Nat} (h : n < 16) : hexValue? n.digitChar = some n := by
  have : ∀ n < 16, hexValue? n.digitChar = some n := by decide
  exact this n h

def hexFrom (n : Nat) : List Nat → Nat
  | [] => n
  | d :: ds => hexFrom (16 * n + d) ds

/-- The value of one or more hexadecimal digits. -/
def hex? (s : List Char) : Option Nat :=
  if s.isEmpty then none else (s.mapM hexValue?).map (hexFrom 0)

/-- The shortest lower-case form. -/
def hexText (n : Nat) : String := String.ofList (Nat.toDigits 16 n)

/-- Octets from their digits; an odd digit at the end is left out. -/
def octetsOfHex : List Char → List UInt8
  | a :: b :: r =>
    UInt8.ofNat (16 * (hexValue? a).getD 0 + (hexValue? b).getD 0) :: octetsOfHex r
  | _ => []

end Text
end TwinWall
