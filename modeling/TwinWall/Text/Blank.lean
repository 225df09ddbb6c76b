/-! Blank characters are those of the White_Space property. Trimming takes them off the ends of a
text and leaves its inside alone. -/
namespace TwinWall
namespace Text

/-- Code points of the White_Space property, as closed intervals. -/
def blankRanges : List (Nat × Nat) :=
  [(0x09, 0x0d), (0x20, 0x20), (0x85, 0x85), (0xa0, 0xa0), (0x1680, 0x1680), (0x2000, 0x200a),
    (0x2028, 0x2029), (0x202f, 0x202f), (0x205f, 0x205f), (0x3000, 0x3000)]

def inRanges (ranges : List (Nat × Nat)) (n : Nat) : Bool :=
  ranges.any fun r => r.1 ≤ n && n ≤ r.2

def isBlank (c : Char) : Bool := inRanges blankRanges c.toNat

def dropBlanks (s : List Char) : List Char := s.dropWhile isBlank

def dropBlanksEnd (s : List Char) : List Char := (dropBlanks s.reverse).reverse

def trimmed (s : List Char) : List Char := dropBlanksEnd (dropBlanks s)

@[simp] theorem dropBlanks_nil : dropBlanks [] = [] := rfl

@[simp] theorem trimmed_nil : trimmed [] = [] := rfl

theorem dropBlanks_eq_self {c : Char} {s : List Char} (h : isBlank c = false) :
    dropBlanks (c :: s) = c :: s := by
  simp [dropBlanks, h]

def trim (s : String) : String := String.ofList (trimmed s.toList)

def trimEnd (s : String) : String := String.ofList (dropBlanksEnd s.toList)

def allBlank (s : List Char) : Bool := s.all isBlank

@[simp] theorem toList_trim (s : String) : (trim s).toList = trimmed s.toList :=
  String.toList_ofList

end Text
end TwinWall
