import TwinWall.Decimal.Binary64

/-! The fewest decimal digits that are read back as a given binary number, and of those the nearest
to it. A candidate is a point of a decimal grid; if any point of a grid is read back, one of the two
points around the number is. -/
namespace TwinWall
namespace Decimal

/-- The number `digits * 10 ^ exponent`. -/
structure Digits where
  digits : Nat
  exponent : Int
deriving DecidableEq, Repr

namespace Shortest

/-- The number and the ends of the interval that rounds to it, all in units of `1 / den`. -/
structure Interval where
  low : Nat
  value : Nat
  high : Nat
  den : Nat
  closed : Bool

/-- The gap below a power of two is half the gap above it. -/
def interval (x : Binary64) : Interval :=
  let m := x.significand
  let down := if m = 1 <<< 52 && x.exponent ≠ Binary64.least then 1 else 2
  let e := x.exponent - 2
  let f := if 0 ≤ e then 1 <<< e.toNat else 1
  let den := if 0 ≤ e then 1 else 1 <<< (-e).toNat
  ⟨(4 * m - down) * f, 4 * m * f, (4 * m + 2) * f, den, m % 2 = 0⟩

/-- Whether `a * num / den` lies in the interval. -/
def Interval.holds (i : Interval) (a num den : Nat) : Bool :=
  let p := a * num * i.den
  if i.closed then i.low * den ≤ p && p ≤ i.high * den else i.low * den < p && p < i.high * den

/-- Leading zeros after the point of a quotient below one, counted from a given place. -/
def zerosFrom (num den : Nat) : Nat → Nat → Nat
  | 0, k => k
  | n + 1, k => if den ≤ num * Nat.pow 10 k then k else zerosFrom num den n (k + 1)

/-- The decimal exponent of the first digit. -/
def firstPlace (num den : Nat) : Int :=
  if den ≤ num then ((num / den).repr.length : Int) - 1 else -(zerosFrom num den 400 1 : Int)

/-- The point of the grid with `n` digits that is read back, the nearer of two, and the even one of
two that are equally near. -/
def onGrid (i : Interval) (place : Int) (n : Nat) : Option Digits :=
  let k := place - n + 1
  let num := if 0 ≤ k then Nat.pow 10 k.toNat else 1
  let den := if 0 ≤ k then 1 else Nat.pow 10 (-k).toNat
  let a := i.value * den / (i.den * num)
  let b := a + 1
  let twice := 2 * i.value * den
  let middle := (a + b) * num * i.den
  match i.holds a num den, i.holds b num den with
  | true, true =>
    if twice < middle then some ⟨a, k⟩ else if middle < twice then some ⟨b, k⟩
    else some ⟨a + a % 2, k⟩
  | true, false => some ⟨a, k⟩
  | false, true => some ⟨b, k⟩
  | false, false => none

/-- Moves trailing zeros into the exponent. -/
def strip : Nat → Digits → Digits
  | 0, d => d
  | n + 1, d => if d.digits % 10 = 0 then strip n ⟨d.digits / 10, d.exponent + 1⟩ else d

end Shortest

/-- Seventeen digits are enough for every number. -/
def shortest (x : Binary64) : Digits :=
  if x.isZero then ⟨0, 0⟩
  else
    let i := Shortest.interval x
    let place := Shortest.firstPlace i.value i.den
    let found := (List.range 17).findSome? fun n => Shortest.onGrid i place (n + 1)
    Shortest.strip 17 (found.getD ⟨i.value / i.den, 0⟩)

end Decimal
end TwinWall
