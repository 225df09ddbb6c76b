/-! A text is cut into lines after each line feed. The reading of a line leaves out its line feed
and one carriage return before it. -/
namespace TwinWall
namespace Text

/-- Puts a character in front of the first line, which starts one if there is none. -/
def onFirst (c : Char) : List (List Char) → List (List Char)
  | [] => [[c]]
  | l :: ls => (c :: l) :: ls

def linesOf : List Char → List (List Char)
  | [] => []
  | '\n' :: r => [] :: linesOf r
  | '\r' :: '\n' :: r => [] :: linesOf r
  | c :: r => onFirst c (linesOf r)

def lines (s : String) : List String := (linesOf s.toList).map String.ofList

def firstLine (s : String) : String := (lines s).headD ""

@[simp] theorem linesOf_nil : linesOf [] = [] := rfl

theorem onFirst_ne_nil (c : Char) (ls : List (List Char)) : onFirst c ls ≠ [] := by
  cases ls <;> simp [onFirst]

theorem linesOf_eq_nil {s : List Char} : linesOf s = [] ↔ s = [] := by
  fun_cases linesOf s <;> simp [onFirst_ne_nil]

theorem mem_onFirst {c : Char} {ls : List (List Char)} {l : List Char} (h : l ∈ onFirst c ls) :
    l ∈ ls ∨ ∃ m, l = c :: m ∧ (m = [] ∨ m ∈ ls) := by
  cases ls with
  | nil => exact Or.inr ⟨[], by simpa [onFirst] using h, Or.inl rfl⟩
  | cons m ms =>
    rcases List.mem_cons.1 h with rfl | h
    · exact Or.inr ⟨m, rfl, Or.inr (List.mem_cons_self ..)⟩
    · exact Or.inl (List.mem_cons_of_mem _ h)

/-- No line holds a line feed. -/
theorem lf_notMem_linesOf {s l : List Char} (h : l ∈ linesOf s) : '\n' ∉ l := by
  fun_induction linesOf s generalizing l with
  | case1 => simp at h
  | case2 r ih => rcases List.mem_cons.1 h with rfl | h <;> simp_all
  | case3 r ih => rcases List.mem_cons.1 h with rfl | h <;> simp_all
  | case4 c r hc _ ih =>
    rcases mem_onFirst h with h | ⟨m, rfl, hm⟩
    · exact ih h
    · intro hlf
      rcases List.mem_cons.1 hlf with hlf | hlf
      · exact hc hlf.symm
      · rcases hm with rfl | hm
        · simp at hlf
        · exact ih hm hlf

/-- Pieces that together are the text, each but the last ending in its only line ending, which is a
line feed, a carriage return, or the two in that order. -/
def piecesOf : List Char → List (List Char)
  | [] => []
  | '\n' :: r => ['\n'] :: piecesOf r
  | '\r' :: '\n' :: r => ['\r', '\n'] :: piecesOf r
  | '\r' :: r => ['\r'] :: piecesOf r
  | c :: r => onFirst c (piecesOf r)

def pieces (s : String) : List String := (piecesOf s.toList).map String.ofList

theorem flatten_onFirst (c : Char) (ls : List (List Char)) :
    (onFirst c ls).flatten = c :: ls.flatten := by
  cases ls <;> simp [onFirst]

/-- The pieces lose nothing. -/
theorem flatten_piecesOf (s : List Char) : (piecesOf s).flatten = s := by
  fun_induction piecesOf s <;> simp_all [flatten_onFirst]

/-- Whether a piece ends its line. -/
def endsLine (l : List Char) : Bool := l.getLast?.any fun c => c == '\n' || c == '\r'

end Text
end TwinWall
