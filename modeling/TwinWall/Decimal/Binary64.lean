/-! Numbers of 53 binary digits, as a whole number times a power of two. A quotient is rounded to the
nearest of them, and to the even one of two that are equally near. -/
namespace TwinWall
namespace Decimal

/-- The magnitude `significand * 2 ^ exponent` with its sign. -/
structure Binary64 where
  negative : Bool
  significand : Nat
  exponent : Int
deriving DecidableEq, Repr

namespace Binary64

def least : Int := -1074

def greatest : Int := 971

/-- The nearest whole number to a quotient, the even one of two. -/
def nearest (num den : Nat) : Nat :=
  let q := num / den
  let r := num % den
  if 2 * r < den then q else if 2 * r = den then q + q % 2 else q + 1

/-- Moves a power of two out of a quotient. -/
def shifted (num den : Nat) (e : Int) : Nat × Nat :=
  if 0 ≤ e then (num, den <<< e.toNat) else (num <<< (-e).toNat, den)

/-- The exponent that leaves a quotient with 53 digits before its point, or the least one. -/
def scale (num den : Nat) : Int :=
  let e := (num.log2 : Int) - den.log2 - 52
  let s := shifted num den e
  max least (if s.1 < s.2 <<< 52 then e - 1 else e)

/-- Rounds a quotient; a value beyond the greatest number has none. -/
def ofQuotient (negative : Bool) (num den : Nat) : Option Binary64 :=
  if num = 0 then some ⟨negative, 0, least⟩
  else
    let e := scale num den
    let s := shifted num den e
    let m := nearest s.1 s.2
    let (m, e) := if m = 1 <<< 53 then (1 <<< 52, e + 1) else (m, e)
    if greatest < e then none else some ⟨negative, m, e⟩

def ofNat (n : Nat) : Option Binary64 := ofQuotient false n 1

/-- The magnitude as a quotient. -/
def quotient (x : Binary64) : Nat × Nat :=
  if 0 ≤ x.exponent then (x.significand <<< x.exponent.toNat, 1)
  else (x.significand, 1 <<< (-x.exponent).toNat)

def isZero (x : Binary64) : Bool := x.significand = 0

def mul (x y : Binary64) : Option Binary64 :=
  let (a, b) := x.quotient
  let (c, d) := y.quotient
  ofQuotient (x.negative != y.negative) (a * c) (b * d)

def div (x y : Binary64) : Option Binary64 :=
  let (a, b) := x.quotient
  let (c, d) := y.quotient
  ofQuotient (x.negative != y.negative) (a * d) (b * c)

def neg (x : Binary64) : Binary64 := { x with negative := !x.negative }

/-- The whole number that this is, if it is one. -/
def toInt? (x : Binary64) : Option Int :=
  let (a, b) := x.quotient
  if a % b = 0 then some (if x.negative then -((a / b : Nat) : Int) else ((a / b : Nat) : Int))
  else none

/-- Only exponents to 308 are asked for, and each of these powers has a nearest number. -/
def powerOfTen (k : Nat) : Binary64 := (ofNat (Nat.pow 10 k)).getD ⟨false, 0, least⟩

/-- Scales by a power of ten in steps of at most 308, each step rounded. Three steps down reach zero
from any 64-bit whole number. -/
def scaleTen : Nat → Binary64 → Int → Option Binary64
  | 0, x, _ => some x
  | n + 1, x, e =>
    if e.natAbs ≤ 308 then
      if 0 ≤ e then x.mul (powerOfTen e.natAbs) else x.div (powerOfTen e.natAbs)
    else if x.isZero then some x
    else if 0 ≤ e then none
    else (x.div (powerOfTen 308)).bind fun y => scaleTen n y (e + 308)

/-- A decimal number: its digits are rounded first and then scaled, which may round once more. -/
def ofDecimal (digits : Nat) (e : Int) : Option Binary64 :=
  (ofNat digits).bind fun x => scaleTen 4 x e

end Binary64
end Decimal
end TwinWall
