import TwinWall.Diff.Change

/-! Lines that are in one list only are slid along kept lines that read the same, so that they come to
lie beside others of their kind and are joined with them. First they go up as far as they can, and then
down. -/
namespace TwinWall
namespace Diff

/-- How many lines at the end of kept ones a run below them can be slid over, and how many at the
beginning of those below it. Only added lines are slid. -/
def roomUp : Side → List String → List String → Nat
  | .old, _, _ => 0
  | .new, l, run => shared l.reverse run.reverse

def roomDown : Side → List String → List String → Nat
  | .old, _, _ => 0
  | .new, l, run => shared l run

theorem roomUp_le (s : Side) (l run : List String) : roomUp s l run ≤ l.length := by
  cases s with
  | old => exact Nat.zero_le _
  | new => simpa [roomUp] using shared_le l.reverse run.reverse

theorem roomDown_le (s : Side) (l run : List String) : roomDown s l run ≤ l.length := by
  cases s with
  | old => exact Nat.zero_le _
  | new => exact shared_le l run

def weight (l : List Change) : Nat := l.foldr (fun c n => c.size + 1 + n) 0

@[simp] theorem weight_cons (c : Change) (l : List Change) :
    weight (c :: l) = c.size + 1 + weight l := rfl

/-- Puts kept lines in front of changes. -/
def keepBefore (m : List String) : List Change → List Change
  | .keep l :: r => .keep (m ++ l) :: r
  | r => .keep m :: r

/-- Puts kept lines behind changes, of which the last comes first. -/
def keepAfter (m : List String) : List Change → List Change
  | .keep l :: r => .keep (l ++ m) :: r
  | r => .keep m :: r

/-- A run of lines in its place, with the changes above it from the last on and those below it. -/
structure Spot where
  above : List Change
  run : List String
  below : List Change

def dropEmpty (l : List String) (r : List Change) : List Change :=
  if l = [] then r else .keep l :: r

theorem weight_dropEmpty_le (l : List String) (r : List Change) :
    weight (dropEmpty l r) ≤ l.length + 1 + weight r := by
  unfold dropEmpty; split <;> simp [Change.size]

def slideUp (s : Side) : List Change → List String → List Change → Spot
  | [], run, below => ⟨[], run, below⟩
  | .only t l :: above, run, below =>
    if t = s then slideUp s above (l ++ run) below
    else slideUp s above run (.only t l :: below)
  | .keep l :: above, run, below =>
    let n := roomUp s l run
    if _h : n = 0 then
      if l = [] then slideUp s above run below else ⟨.keep l :: above, run, below⟩
    else
      let moved := l.drop (l.length - n)
      slideUp s (dropEmpty (l.take (l.length - n)) above) (moved ++ run.take (run.length - n))
        (keepBefore moved below)
termination_by above => weight above
decreasing_by
  all_goals simp only [weight_cons, Change.size]
  · omega
  · omega
  · omega
  · have := roomUp_le s l run
    have := weight_dropEmpty_le (l.take (l.length - roomUp s l run)) above
    simp only [List.length_take] at this
    omega

def slideDown (s : Side) : List Change → List String → List Change → Spot
  | above, run, [] => ⟨above, run, []⟩
  | above, run, .only t l :: below =>
    if t = s then slideDown s above (run ++ l) below
    else slideDown s (.only t l :: above) run below
  | above, run, .keep l :: below =>
    let n := roomDown s l run
    if _h : n = 0 then
      if l = [] then slideDown s above run below else ⟨above, run, .keep l :: below⟩
    else
      slideDown s (keepAfter (l.take n) above) (run.drop n ++ l.take n)
        (dropEmpty (l.drop n) below)
termination_by _ _ below => weight below
decreasing_by
  all_goals simp only [weight_cons, Change.size]
  · omega
  · omega
  · omega
  · have := roomDown_le s l run
    have := weight_dropEmpty_le (l.drop (roomDown s l run)) below
    simp only [List.length_drop] at this
    omega

/-- Slides a number of runs of one side, in their order. -/
def settle (s : Side) : Nat → List Change → List Change → List Change
  | 0, above, below => above.reverse ++ below
  | n + 1, above, below =>
    match below.span fun c => !c.isOnly s with
    | (passed, .only _ run :: rest) =>
      let up := slideUp s (passed.reverse ++ above) run rest
      let down := slideDown s up.above up.run up.below
      settle s n (.only s down.run :: down.above) down.below
    | _ => above.reverse ++ below

/-- Slides all runs of one side. -/
def settled (s : Side) (l : List Change) : List Change :=
  settle s (l.countP (·.isOnly s)) [] l

/-- Slides removed lines first and then added ones. -/
def compacted (l : List Change) : List Change := settled .new (settled .old l)

end Diff
end TwinWall
