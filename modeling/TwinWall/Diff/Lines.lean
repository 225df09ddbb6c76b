import TwinWall.Diff.Compare
import TwinWall.Diff.Slide
import TwinWall.Text.Lines

/-! The difference of two texts, shown line by line. Between kept lines all removed lines come before all
added ones. -/
namespace TwinWall
namespace Diff

/-- Where a line is: in both texts, or only in one. -/
abbrev Mark := Option Side

def markText : Mark → String
  | none => "  "
  | some .old => "- "
  | some .new => "+ "

def marked (m : Mark) (l : List String) : List (Mark × String) := l.map fun s => (m, s)

/-- Lines with their marks, after some that were removed and added since the last kept one. -/
def arrange (removed added : List String) : List Change → List (Mark × String)
  | [] => marked (some .old) removed ++ marked (some .new) added
  | .keep l :: r =>
    marked (some .old) removed ++ marked (some .new) added ++ marked none l ++ arrange [] [] r
  | .only .old l :: r => arrange (removed ++ l) added r
  | .only .new l :: r => arrange removed (added ++ l) r

/-- A line without an ending gets one. -/
def closed (l : String) : String := if Text.endsLine l.toList then l else l ++ "\n"

def lineText (p : Mark × String) : String := markText p.1 ++ closed p.2

def markedLines (old new : String) : List (Mark × String) :=
  arrange [] [] (compacted (changes (Text.pieces old) (Text.pieces new)))

/-- There is no difference only between equal texts. -/
def lineDiff? (old new : String) : Option String :=
  if old = new then none else some (String.join ((markedLines old new).map lineText))

theorem lineDiff?_eq_none_iff {old new : String} : lineDiff? old new = none ↔ old = new := by
  unfold lineDiff?; split <;> simp_all

end Diff
end TwinWall
