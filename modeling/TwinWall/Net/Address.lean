import TwinWall.Decimal.Natural
import TwinWall.Text.Hex

/-! Addresses of the two families and their text. In the text of the second family the longest run of
zero groups is left out; reading takes every usual form. -/
namespace TwinWall
namespace Net

inductive Family where
  | v4
  | v6
deriving DecidableEq, Repr

namespace Family

def width : Family → Nat
  | v4 => 32
  | v6 => 128

def label : Family → String
  | v4 => "IPv4"
  | v6 => "IPv6"

@[simp] theorem width_v4 : width .v4 = 32 := rfl

@[simp] theorem width_v6 : width .v6 = 128 := rfl

end Family

abbrev Address (f : Family) := BitVec f.width

/-- Digits of a number in a base, most significant first, as many as asked for. -/
def parts (base : Nat) : Nat → Nat → List Nat
  | 0, _ => []
  | n + 1, a => a / base.pow n % base :: parts base n a

@[simp] theorem length_parts (base n a : Nat) : (parts base n a).length = n := by
  induction n with
  | zero => rfl
  | succ n ih => simp [parts, ih]

theorem lt_of_mem_parts {base n a x : Nat} (hb : 0 < base) (h : x ∈ parts base n a) : x < base := by
  induction n with
  | zero => simp [parts] at h
  | succ n ih =>
    rcases List.mem_cons.1 h with rfl | h
    · exact Nat.mod_lt _ hb
    · exact ih h

/-- The number that has given digits in a base. -/
def joined (base : Nat) (l : List Nat) : Nat := l.foldl (fun n d => base * n + d) 0

namespace Address

def octets (a : Address .v4) : List Nat := parts 256 4 a.toNat

def groups (a : Address .v6) : List Nat := parts 65536 8 a.toNat

def ofOctets (l : List Nat) : Address .v4 := BitVec.ofNat 32 (joined 256 l)

def ofGroups (l : List Nat) : Address .v6 := BitVec.ofNat 128 (joined 65536 l)

def dotted (octets : List Nat) : String := ".".intercalate (octets.map Nat.repr)

def leadingZeros (l : List Nat) : Nat := (l.takeWhile (· = 0)).length

/-- Where the first of the longest runs of zeros starts, and how long it is. -/
def longestZeros : List Nat → Nat × Nat
  | [] => (0, 0)
  | g :: r =>
    let here := leadingZeros (g :: r)
    let later := longestZeros r
    if later.2 ≤ here then (0, here) else (later.1 + 1, later.2)

def colonGroups (l : List Nat) : String := ":".intercalate (l.map Text.hexText)

/-- Whether the address stands for one of the other family. -/
def isMapped (groups : List Nat) : Bool :=
  groups.take 5 = [0, 0, 0, 0, 0] && groups[5]? = some 65535

def groupText (groups : List Nat) : String :=
  if isMapped groups then "::ffff:" ++ dotted ((groups.drop 6).flatMap fun g => [g / 256, g % 256])
  else
    let (start, length) := longestZeros groups
    if 2 ≤ length then
      colonGroups (groups.take start) ++ "::" ++ colonGroups (groups.drop (start + length))
    else colonGroups groups

def text : (f : Family) → Address f → String
  | .v4, a => dotted (octets a)
  | .v6, a => groupText (groups a)

/-- A number to 255 without needless zeros in front. -/
def octet? (s : List Char) : Option Nat :=
  if s.length ≤ 3 ∧ (s.length ≤ 1 ∨ s.head? ≠ some '0') then
    (Decimal.digits? s).filter (· ≤ 255)
  else none

def octets? (s : List Char) : Option (List Nat) :=
  match s.splitOn '.' with
  | [a, b, c, d] => [a, b, c, d].mapM octet?
  | _ => none

def group? (s : List Char) : Option Nat := if s.length ≤ 4 then Text.hex? s else none

/-- Groups between colons, of which the last may be written as four octets that make two groups. -/
def groupList? (dots : Bool) : List (List Char) → Option (List Nat)
  | [] => some []
  | [s] =>
    match group? s with
    | some g => some [g]
    | none =>
      if dots then (octets? s).map fun l => [joined 256 (l.take 2), joined 256 (l.drop 2)] else none
  | s :: r => do
    let g ← group? s
    let gs ← groupList? dots r
    some (g :: gs)

def groups? (dots : Bool) (s : List Char) : Option (List Nat) :=
  if s.isEmpty then some [] else groupList? dots (s.splitOn ':')

/-- What is before and after the first double colon. -/
def splitDouble : List Char → Option (List Char × List Char)
  | ':' :: ':' :: r => some ([], r)
  | c :: r => (splitDouble r).map fun p => (c :: p.1, p.2)
  | [] => none

/-- Eight groups; a double colon stands for one zero group or more. -/
def allGroups? (s : List Char) : Option (List Nat) :=
  match splitDouble s with
  | some (h, t) => do
    let hs ← groups? false h
    let ts ← groups? true t
    if hs.length + ts.length ≤ 7 then
      some (hs ++ List.replicate (8 - hs.length - ts.length) 0 ++ ts)
    else none
  | none => (groups? true s).filter (·.length = 8)

def read? : (f : Family) → List Char → Option (Address f)
  | .v4, s => (octets? s).map ofOctets
  | .v6, s => (allGroups? s).map ofGroups

end Address
end Net
end TwinWall
