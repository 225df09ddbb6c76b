import TwinWall.Diff.Change
import TwinWall.Diff.Middle

/-! Changes between two lists of lines. What both begin and end with is kept, and the rest is compared in
two parts around a point in the middle. -/
namespace TwinWall
namespace Diff

def kept (l : List String) : List Change := if l = [] then [] else [.keep l]

def onlyIn (s : Side) (l : List String) : List Change := if l = [] then [] else [.only s l]

@[simp] theorem view_kept (s : Side) (l : List String) : view s (kept l) = l := by
  unfold kept; split <;> simp_all

@[simp] theorem view_onlyIn_self (s : Side) (l : List String) : view s (onlyIn s l) = l := by
  unfold onlyIn; split <;> simp_all

/-- The parts of two lists that are left without their common beginning and end. -/
structure Core where
  front : List String
  old : List String
  new : List String
  back : List String

def Core.of (old new : List String) : Core :=
  let p := shared old new
  let o := old.drop p
  let n := new.drop p
  let s := shared o.reverse n.reverse
  ⟨old.take p, o.take (o.length - s), n.take (n.length - s), o.drop (o.length - s)⟩

theorem Core.length_old_le (old new : List String) : (Core.of old new).old.length ≤ old.length := by
  simp only [Core.of, List.length_take, List.length_drop]; omega

theorem Core.length_new_le (old new : List String) : (Core.of old new).new.length ≤ new.length := by
  simp only [Core.of, List.length_take, List.length_drop]; omega

def changes (old new : List String) : List Change :=
  let c := Core.of old new
  let apart := onlyIn .old c.old ++ onlyIn .new c.new
  let between :=
    if c.old = [] ∨ c.new = [] then apart
    else
      match middle? c.old c.new with
      | none => apart
      | some (x, y) =>
        if _h : (c.old.take x).length + (c.new.take y).length < c.old.length + c.new.length ∧
            (c.old.drop x).length + (c.new.drop y).length < c.old.length + c.new.length then
          changes (c.old.take x) (c.new.take y) ++ changes (c.old.drop x) (c.new.drop y)
        else apart
  kept c.front ++ between ++ kept c.back
termination_by old.length + new.length
decreasing_by
  all_goals
    have h₁ := Core.length_old_le old new
    have h₂ := Core.length_new_le old new
    first
      | exact Nat.lt_of_lt_of_le _h.1 (Nat.add_le_add h₁ h₂)
      | exact Nat.lt_of_lt_of_le _h.2 (Nat.add_le_add h₁ h₂)

end Diff
end TwinWall
