/-! Octets are read as UTF-8. Each maximal part that begins no character counts as one flaw, so a
strict reading and a mending one are two views of the same list. -/
namespace TwinWall
namespace Text
namespace Utf8

def isTail (b : UInt8) : Bool := 0x80 ≤ b && b ≤ 0xbf

/-- Whether a second octet may follow the first of a three-octet character. -/
def fitsThree (a b : UInt8) : Bool :=
  if a = 0xe0 then 0xa0 ≤ b && b ≤ 0xbf
  else if a = 0xed then 0x80 ≤ b && b ≤ 0x9f
  else isTail b

/-- Whether a second octet may follow the first of a four-octet character. -/
def fitsFour (a b : UInt8) : Bool :=
  if a = 0xf0 then 0x90 ≤ b && b ≤ 0xbf
  else if a = 0xf4 then 0x80 ≤ b && b ≤ 0x8f
  else isTail b

def low (b : UInt8) : Nat := b.toNat % 64

/-- The characters in order, with nothing in the place of each flaw. -/
def scan : List UInt8 → List (Option Char)
  | [] => []
  | a :: r =>
    if a < 0x80 then some (Char.ofNat a.toNat) :: scan r
    else if 0xc2 ≤ a && a ≤ 0xdf then
      match r with
      | b :: r' =>
        if isTail b then some (Char.ofNat (a.toNat % 32 * 64 + low b)) :: scan r'
        else none :: scan (b :: r')
      | [] => [none]
    else if 0xe0 ≤ a && a ≤ 0xef then
      match r with
      | b :: c :: r' =>
        if fitsThree a b then
          if isTail c then
            some (Char.ofNat ((a.toNat % 16 * 64 + low b) * 64 + low c)) :: scan r'
          else none :: scan (c :: r')
        else none :: scan (b :: c :: r')
      | [b] => if fitsThree a b then [none] else none :: scan [b]
      | [] => [none]
    else if 0xf0 ≤ a && a ≤ 0xf4 then
      match r with
      | b :: c :: d :: r' =>
        if fitsFour a b then
          if isTail c then
            if isTail d then
              some (Char.ofNat (((a.toNat % 8 * 64 + low b) * 64 + low c) * 64 + low d)) :: scan r'
            else none :: scan (d :: r')
          else none :: scan (c :: d :: r')
        else none :: scan (b :: c :: d :: r')
      | [b, c] =>
        if fitsFour a b then
          if isTail c then [none] else none :: scan [c]
        else none :: scan [b, c]
      | [b] => if fitsFour a b then [none] else none :: scan [b]
      | [] => [none]
    else none :: scan r
  termination_by structural s => s

/-- The text, if there is no flaw in it. -/
def decode? (bytes : List UInt8) : Option String := ((scan bytes).mapM id).map String.ofList

/-- The text with a replacement character for each flaw. -/
def mend (bytes : List UInt8) : String :=
  String.ofList ((scan bytes).map (Option.getD · '\ufffd'))

def encode (s : String) : List UInt8 := s.toList.flatMap String.utf8EncodeChar

end Utf8

/-- Length in octets. -/
def octets (s : List Char) : Nat := s.foldr (fun c n => c.utf8Size + n) 0

@[simp] theorem octets_nil : octets [] = 0 := rfl

@[simp] theorem octets_cons (c : Char) (s : List Char) :
    octets (c :: s) = c.utf8Size + octets s := rfl

end Text
end TwinWall
