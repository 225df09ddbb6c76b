/-! A point in the middle of a shortest way from one list of lines to another, found by going ahead from
both ends. On each diagonal only the furthest place counts that is reached with so many changes. -/
namespace TwinWall
namespace Diff

/-- Furthest places by diagonal, of which there are as many on either side of the middle one. -/
structure Reach where
  offset : Nat
  places : Array Nat

namespace Reach

def start (most : Nat) : Reach := ⟨most + 1, Array.replicate (2 * most + 3) 0⟩

def index (r : Reach) (k : Int) : Nat := (k + r.offset).toNat

def get (r : Reach) (k : Int) : Nat := r.places.getD (r.index k) 0

def set (r : Reach) (k : Int) (x : Nat) : Reach :=
  { r with places := r.places.setIfInBounds (r.index k) x }

end Reach

/-- The number of lines that are the same from two places on. -/
def sameFrom (a b : Array String) (x y : Nat) : Nat :=
  if _ : x < a.size then
    if _ : y < b.size then
      if a[x] = b[y] then sameFrom a b (x + 1) (y + 1) + 1 else 0
    else 0
  else 0
termination_by a.size - x

/-- The place from which a diagonal is gone along after one more change. -/
def entry (r : Reach) (d k : Int) : Nat :=
  if k = -d ∨ (k ≠ d ∧ r.get (k - 1) < r.get (k + 1)) then r.get (k + 1) else r.get (k - 1) + 1

/-- Two lists in both directions. -/
structure Pair where
  old : Array String
  new : Array String
  oldBack : Array String
  newBack : Array String

namespace Pair

def ofLists (old new : List String) : Pair :=
  ⟨old.toArray, new.toArray, old.reverse.toArray, new.reverse.toArray⟩

def delta (p : Pair) : Int := (p.old.size : Int) - p.new.size

def isOdd (p : Pair) : Bool := p.delta % 2 != 0

/-- Goes ahead from the beginnings on some diagonals, until a way from the ends is met. -/
def ahead (p : Pair) (d : Nat) (back : Reach) : List Int → Reach → Except (Nat × Nat) Reach
  | [], r => .ok r
  | k :: ks, r =>
    let x₀ := entry r d k
    let y₀ := (x₀ - k).toNat
    let x := x₀ + sameFrom p.old p.new x₀ y₀
    let r := r.set k x
    if p.isOdd && (k - p.delta).natAbs + 1 ≤ d && p.old.size ≤ x + back.get (p.delta - k) then
      .error (x₀, y₀)
    else ahead p d back ks r

/-- Goes ahead from the ends on some diagonals, until a way from the beginnings is met. -/
def aback (p : Pair) (d : Nat) (front : Reach) : List Int → Reach → Except (Nat × Nat) Reach
  | [], r => .ok r
  | k :: ks, r =>
    let x₀ := entry r d k
    let y₀ := (x₀ - k).toNat
    let n := sameFrom p.oldBack p.newBack x₀ y₀
    let x := x₀ + n
    let r := r.set k x
    if !p.isOdd && (k - p.delta).natAbs ≤ d && p.old.size ≤ x + front.get (p.delta - k) then
      .error (p.old.size - x, p.new.size - (y₀ + n))
    else aback p d front ks r

/-- Diagonals that are reached with some number of changes, from the highest on. -/
def diagonals (d : Nat) : List Int := (List.range (d + 1)).map fun i : Nat => (d : Int) - 2 * (i : Int)

/-- Goes ahead from both ends with one change more each time. -/
def meet (p : Pair) : Nat → Nat → Reach → Reach → Option (Nat × Nat)
  | 0, _, _, _ => none
  | n + 1, d, front, back =>
    match ahead p d back (diagonals d) front with
    | .error q => some q
    | .ok front =>
      match aback p d front (diagonals d) back with
      | .error q => some q
      | .ok back => meet p n (d + 1) front back

end Pair

/-- A point in the middle, as numbers of lines before it in either list. -/
def middle? (old new : List String) : Option (Nat × Nat) :=
  let most := (old.length + new.length + 1) / 2
  (Pair.ofLists old new).meet (most + 1) 0 (.start (most + 1)) (.start (most + 1))

end Diff
end TwinWall
