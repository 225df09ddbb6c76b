/-! Looking for one text inside another, with or without regard to the case of letters. -/
namespace TwinWall
namespace Text

def hasInfix (p : List Char) : List Char → Bool
  | [] => p.isEmpty
  | c :: r => p.isPrefixOf (c :: r) || hasInfix p r

def contains (s p : String) : Bool := hasInfix p.toList s.toList

/-- The lower case of a character as far as there is an ASCII letter in it. Besides A to Z these are the
Kelvin sign and the dotted capital I, which keeps its dot as a mark of its own. -/
def lowered (c : Char) : List Char :=
  if c = '\u212a' then ['k'] else if c = '\u0130' then ['i', '\u0307'] else [c.toLower]

def containsFolded (s p : String) : Bool := hasInfix p.toList (s.toList.flatMap lowered)

/-- Takes a repeated beginning off a text. -/
def dropRepeated (p : List Char) : Nat → List Char → List Char
  | 0, s => s
  | n + 1, s => if p.isPrefixOf s then dropRepeated p n (s.drop p.length) else s

/-- A beginning of length zero is never taken off, and any other at most as often as the text is
long. -/
def dropAll (p s : List Char) : List Char := dropRepeated p s.length s

end Text
end TwinWall
