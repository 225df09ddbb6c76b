/-! Changes that lead from one list of lines to another. What is kept and what is removed is the old
list, and what is kept and what is added the new one. -/
namespace TwinWall
namespace Diff

/-- The list that a line is only in. -/
inductive Side where
  | old
  | new
deriving DecidableEq, Repr

inductive Change where
  | keep (lines : List String)
  | only (side : Side) (lines : List String)
deriving DecidableEq, Repr

namespace Change

/-- The lines of a change that are in one of the lists. -/
def on (s : Side) : Change → List String
  | keep l => l
  | only t l => if s = t then l else []

def isOnly (s : Side) : Change → Bool
  | keep _ => false
  | only t _ => s = t

def size : Change → Nat
  | keep l => l.length
  | only _ l => l.length

@[simp] theorem on_keep (s : Side) (l : List String) : (keep l).on s = l := rfl

@[simp] theorem on_only_self (s : Side) (l : List String) : (only s l).on s = l := by simp [on]

end Change

/-- One of the lists, as the changes show it. -/
def view (s : Side) (l : List Change) : List String := l.flatMap (Change.on s)

@[simp] theorem view_nil (s : Side) : view s [] = [] := rfl

@[simp] theorem view_cons (s : Side) (c : Change) (l : List Change) :
    view s (c :: l) = c.on s ++ view s l := by
  simp [view]

@[simp] theorem view_append (s : Side) (l m : List Change) :
    view s (l ++ m) = view s l ++ view s m := by
  simp [view]

/-- The number of lines that two lists begin with. -/
def shared : List String → List String → Nat
  | a :: l, b :: m => if a = b then shared l m + 1 else 0
  | _, _ => 0

theorem take_shared (l m : List String) : l.take (shared l m) = m.take (shared l m) := by
  induction l generalizing m with
  | nil => simp [shared]
  | cons a l ih =>
    cases m with
    | nil => simp [shared]
    | cons b m =>
      by_cases h : a = b
      · simp [shared, h, ih]
      · simp [shared, h]

theorem shared_le (l m : List String) : shared l m ≤ l.length := by
  induction l generalizing m with
  | nil => simp [shared]
  | cons a l ih =>
    cases m with
    | nil => simp [shared]
    | cons b m =>
      by_cases h : a = b
      · simpa [shared, h] using ih m
      · simp [shared, h]

end Diff
end TwinWall
