import TwinWall.Net.Address
import TwinWall.Text.Blank

/-! Networks are an address with the length of the part that its addresses share. The other bits of a
network in a policy are zero; a network with such host bits is refused with the one it lies in. -/
namespace TwinWall
namespace Net

structure Network (f : Family) where
  address : Address f
  len : Nat
  len_le : len ≤ f.width
deriving DecidableEq

namespace Network

/-- The number of its addresses. -/
def size {f : Family} (n : Network f) : Nat := 1 <<< (f.width - n.len)

def first {f : Family} (n : Network f) : Address f :=
  BitVec.ofNat f.width (n.address.toNat / n.size * n.size)

def last {f : Family} (n : Network f) : Address f :=
  BitVec.ofNat f.width (n.address.toNat / n.size * n.size + (n.size - 1))

def contains {f : Family} (n : Network f) (a : Address f) : Bool :=
  a.toNat / n.size = n.address.toNat / n.size

/-- Whether no bit behind the shared part is set. -/
def isPlain {f : Family} (n : Network f) : Bool := n.address = n.first

/-- The network that the address lies in. -/
def plain {f : Family} (n : Network f) : Network f := { n with address := n.first }

def text {f : Family} (n : Network f) : String := n.address.text f ++ "/" ++ n.len.repr

/-- A network of one address is written as that address. -/
def brief {f : Family} (n : Network f) : String :=
  if n.len = f.width then n.address.text f else n.text

theorem size_pos {f : Family} (n : Network f) : 0 < n.size := by
  rw [size, Nat.one_shiftLeft]
  exact Nat.two_pow_pos _

@[simp] theorem contains_self {f : Family} (n : Network f) : n.contains n.address = true := by
  simp [contains]

/-- The length that a mask of ones in front stands for. -/
def lenOfMask? (mask : Nat) : Option Nat :=
  (List.range 33).find? fun n => mask = (1 <<< 32) - (1 <<< (32 - n))

/-- A length in digits, or for the first family a mask written as an address. -/
def len? : (f : Family) → List Char → Option Nat
  | .v4, s =>
    match Address.octets? s with
    | some l => lenOfMask? (joined 256 l)
    | none => Decimal.unsigned? s
  | .v6, s => Decimal.unsigned? s

def make? (f : Family) (a : Address f) (n : Nat) : Option (Network f) :=
  if h : n ≤ f.width then some ⟨a, n, h⟩ else none

/-- An address alone is a network of one address. -/
def read? (f : Family) (s : List Char) : Option (Network f) :=
  match s.splitOn '/' with
  | [a] => (Address.read? f a).bind fun a => make? f a f.width
  | [a, l] => do
    let a ← Address.read? f a
    let n ← len? f l
    make? f a n
  | _ => none

/-- The blocks 10.0.0.0/8, 172.16.0.0/12 and 192.168.0.0/16. -/
def isPrivateAddress (a : Address .v4) : Bool :=
  a.toNat >>> 24 = 10 || a.toNat >>> 20 = 2753 || a.toNat >>> 16 = 49320

/-- Looks at both ends of the network. -/
def isPrivate (n : Network .v4) : Bool := isPrivateAddress n.first && isPrivateAddress n.last

end Network

/-- A network of either family. -/
inductive Subnet where
  | v4 (network : Network .v4)
  | v6 (network : Network .v6)
deriving DecidableEq

/-- Why a text is no network of a policy. -/
inductive NetworkError where
  | unreadable (raw : String)
  | hostBits (raw : String) (meant : Subnet)
deriving DecidableEq

namespace Subnet

def family : Subnet → Family
  | v4 _ => .v4
  | v6 _ => .v6

def isPlain : Subnet → Bool
  | v4 n => n.isPlain
  | v6 n => n.isPlain

def plain : Subnet → Subnet
  | v4 n => v4 n.plain
  | v6 n => v6 n.plain

def text : Subnet → String
  | v4 n => n.text
  | v6 n => n.text

def brief : Subnet → String
  | v4 n => n.brief
  | v6 n => n.brief

/-- The first family is tried first. -/
def read? (s : List Char) : Option Subnet :=
  match Network.read? .v4 s with
  | some n => some (v4 n)
  | none => (Network.read? .v6 s).map v6

/-- Reads a network between blanks and refuses host bits. -/
def parse (raw : String) : Except NetworkError Subnet :=
  match read? (Text.trimmed raw.toList) with
  | none => .error (.unreadable raw)
  | some n => if n.isPlain then .ok n else .error (.hostBits raw n.plain)

end Subnet

namespace NetworkError

def message : NetworkError → String
  | unreadable raw => "\"" ++ raw ++ "\" is not a valid IP address or network"
  | hostBits raw meant => "\"" ++ raw ++ "\" has host bits set, did you mean " ++ meant.text ++ "?"

end NetworkError
end Net
end TwinWall
