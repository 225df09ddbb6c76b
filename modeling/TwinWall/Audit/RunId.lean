import TwinWall.Text.Hex

/-! Identifiers of runs, of 128 bits. They are written in groups of digits between hyphens, and read
also without hyphens, in braces or as a name of their kind. -/
namespace TwinWall
namespace Audit

abbrev RunId := BitVec 128

namespace RunId

def digitCount : Nat := 32

def groupLengths : List Nat := [8, 4, 4, 4, 12]

def digits (r : RunId) : List Char := List.leftpad digitCount '0' (Nat.toDigits 16 r.toNat)

/-- Cuts a list into parts of given lengths. -/
def cut {α : Type} : List Nat → List α → List (List α)
  | [], _ => []
  | n :: ns, l => l.take n :: cut ns (l.drop n)

def text (r : RunId) : String := String.ofList (['-'].intercalate (cut groupLengths r.digits))

def ofDigits? (s : List Char) : Option RunId :=
  if s.length = digitCount then (Text.hex? s).map fun n => BitVec.ofNat 128 n else none

def hyphenated? (s : List Char) : Option RunId :=
  let groups := s.splitOn '-'
  if groups.map List.length = groupLengths then ofDigits? groups.flatten else none

def nameHead : List Char := ['u', 'r', 'n', ':', 'u', 'u', 'i', 'd', ':']

/-- What is inside braces, or behind the head of a name. -/
def unwrapped (s : List Char) : List Char :=
  if s.head? = some '\x7b' ∧ s.getLast? = some '\x7d' then s.tail.dropLast
  else if nameHead.isPrefixOf s then s.drop nameHead.length
  else s

def read? (text : String) : Option RunId :=
  let s := text.toList
  if s.length = digitCount then ofDigits? s else hyphenated? (unwrapped s)

end RunId
end Audit
end TwinWall
