import Mathlib.Data.List.Forall2
import Mathlib.Data.List.TakeDrop
import TwinWall.Diff.Lines
import TwinWall.Proofs.Text.Endings

/-! What a difference shows. Comparing, sliding and arranging keep both lists of lines, so that the lines
shown as kept or removed are those of the old text, and the lines shown as kept or added those of the new
one. -/
namespace TwinWall
namespace Diff

/-- What belongs to a side. -/
def Side.of {α : Type} (old new : α) : Side → α
  | .old => old
  | .new => new

variable {t : Side}

theorem view_reverse_cons (c : Change) (l : List Change) :
    view t (c :: l).reverse = view t l.reverse ++ c.on t := by
  simp

/-- What two lists end with, as they end with the same lines. -/
theorem drop_shared_reverse (l m : List String) :
    l.drop (l.length - shared l.reverse m.reverse) = m.drop (m.length - shared l.reverse m.reverse) := by
  have htake := congrArg List.reverse (take_shared l.reverse m.reverse)
  rwa [List.reverse_take, List.reverse_take, List.reverse_reverse, List.reverse_reverse,
    List.length_reverse, List.length_reverse] at htake

section Slide

@[simp] theorem view_keepBefore (m : List String) (l : List Change) :
    view t (keepBefore m l) = m ++ view t l := by
  fun_cases keepBefore m l <;> simp

@[simp] theorem view_reverse_keepAfter (m : List String) (l : List Change) :
    view t (keepAfter m l).reverse = view t l.reverse ++ m := by
  fun_cases keepAfter m l <;> simp

@[simp] theorem view_dropEmpty (l : List String) (r : List Change) :
    view t (dropEmpty l r) = l ++ view t r := by
  unfold dropEmpty
  split <;> simp_all

@[simp] theorem view_reverse_dropEmpty (l : List String) (r : List Change) :
    view t (dropEmpty l r).reverse = view t r.reverse ++ l := by
  unfold dropEmpty
  split <;> simp_all

/-- Lines at the end of kept ones that a run can be slid over read like the end of the run. -/
theorem drop_roomUp (s : Side) (l run : List String) :
    l.drop (l.length - roomUp s l run) = run.drop (run.length - roomUp s l run) := by
  cases s with
  | old => simp [roomUp]
  | new => exact drop_shared_reverse l run

/-- Lines at the beginning of kept ones that a run can be slid over read like the beginning of the run. -/
theorem take_roomDown (s : Side) (l run : List String) :
    l.take (roomDown s l run) = run.take (roomDown s l run) := by
  cases s with
  | old => rfl
  | new => exact take_shared l run

/-- The changes around a run, with the run in its place. -/
def Spot.changes (s : Side) (x : Spot) : List Change := x.above.reverse ++ .only s x.run :: x.below

theorem view_changes_spot (s t : Side) (x : Spot) : view t (x.changes s) =
    view t x.above.reverse ++ (if t = s then x.run else []) ++ view t x.below := by
  simp [Spot.changes, Change.on]

/-- A run that is slid up leaves both lists as they are. -/
theorem view_slideUp (s t : Side) (above : List Change) (run : List String) (below : List Change) :
    view t ((slideUp s above run below).changes s) = view t (Spot.changes s ⟨above, run, below⟩) := by
  fun_induction slideUp s above run below with
  | case1 => rfl
  | case2 run below l above ih =>
    rw [ih, view_changes_spot, view_changes_spot, view_reverse_cons, Change.on]
    split <;> simp
  | case3 u l above run below hu ih =>
    rw [ih, view_changes_spot, view_changes_spot, view_reverse_cons, view_cons, Change.on]
    -- two runs of different sides change places, and of these a list has one only
    by_cases ht : t = s
    · simp [ht, Ne.symm hu]
    · simp [ht]
  | case4 above run below _ _ ih =>
    rw [ih, view_changes_spot, view_changes_spot, view_reverse_cons, Change.on_keep, List.append_nil]
  | case5 => rfl
  | case6 l above run below n hn moved ih =>
    have hl : l.take (l.length - n) ++ moved = l := List.take_append_drop ..
    have hmoved : moved = run.drop (run.length - n) := drop_roomUp s l run
    have hrun : run.take (run.length - n) ++ moved = run := by
      rw [hmoved, List.take_append_drop]
    rw [ih, view_changes_spot, view_changes_spot, view_reverse_dropEmpty, view_keepBefore,
      view_reverse_cons, Change.on_keep]
    conv => rhs; rw [← hl, ← hrun]
    by_cases ht : t = s <;> simp only [ht, if_true, if_false, List.append_assoc, List.nil_append]

/-- A run that is slid down leaves both lists as they are. -/
theorem view_slideDown (s t : Side) (above : List Change) (run : List String) (below : List Change) :
    view t ((slideDown s above run below).changes s) = view t (Spot.changes s ⟨above, run, below⟩) := by
  fun_induction slideDown s above run below with
  | case1 => rfl
  | case2 above run l below ih =>
    rw [ih, view_changes_spot, view_changes_spot, view_cons, Change.on]
    split <;> simp
  | case3 above run u l below hu ih =>
    rw [ih, view_changes_spot, view_changes_spot, view_reverse_cons, view_cons, Change.on]
    by_cases ht : t = s
    · simp [ht, Ne.symm hu]
    · simp [ht]
  | case4 above run below _ _ ih =>
    rw [ih, view_changes_spot, view_changes_spot, view_cons, Change.on_keep, List.nil_append]
  | case5 => rfl
  | case6 above run l below n hn ih =>
    have hl : l.take n ++ l.drop n = l := List.take_append_drop ..
    have htake : l.take n = run.take n := take_roomDown s l run
    have hrun : l.take n ++ run.drop n = run := by
      rw [htake, List.take_append_drop]
    rw [ih, view_changes_spot, view_changes_spot, view_reverse_keepAfter, view_dropEmpty, view_cons,
      Change.on_keep]
    conv => rhs; rw [← hl, ← hrun]
    by_cases ht : t = s <;> simp only [ht, if_true, if_false, List.append_assoc, List.nil_append]

/-- The first change behind those that are passed is one of the side. -/
theorem span_isOnly {s u : Side} {l passed rest : List Change} {run : List String}
    (h : l.span (fun c => !c.isOnly s) = (passed, .only u run :: rest)) :
    l = passed ++ .only s run :: rest := by
  rw [List.span_eq_takeWhile_dropWhile, Prod.mk.injEq] at h
  have hhead := List.head?_dropWhile_not (fun c => !Change.isOnly s c) l
  rw [h.2] at hhead
  obtain rfl : s = u := by simpa [Change.isOnly] using hhead
  rw [← h.1, ← h.2, List.takeWhile_append_dropWhile]

/-- Runs of one side that are slid one after the other leave both lists as they are. -/
theorem view_settle (s t : Side) (n : Nat) (above below : List Change) :
    view t (settle s n above below) = view t (above.reverse ++ below) := by
  fun_induction settle s n above below with
  | case1 => rfl
  | case2 n above below passed u run rest hspan up down ih =>
    calc view t (settle s n (.only s down.run :: down.above) down.below)
        = view t (down.changes s) := by
          rw [ih]
          simp [Spot.changes]
      _ = view t (up.changes s) := view_slideDown ..
      _ = view t (Spot.changes s ⟨passed.reverse ++ above, run, rest⟩) := view_slideUp ..
      _ = view t (above.reverse ++ below) := by
          rw [span_isOnly hspan]
          simp [Spot.changes]
  | case3 => rfl

theorem view_settled (s : Side) (l : List Change) : view t (settled s l) = view t l :=
  view_settle s t _ [] l

theorem view_compacted (l : List Change) : view t (compacted l) = view t l := by
  rw [compacted, view_settled, view_settled]

end Slide

section Compare

variable {old new : List String}

theorem view_onlyIn (s : Side) (l : List String) : view t (onlyIn s l) = if t = s then l else [] := by
  unfold onlyIn
  split <;> simp_all [Change.on]

/-- The lines of two lists that have nothing in common. -/
theorem view_apart (old new : List String) :
    view t (onlyIn .old old ++ onlyIn .new new) = t.of old new := by
  cases t <;> simp [view_onlyIn, Side.of]

/-- What is left of both lists stands between what they share. -/
theorem Core.joined (t : Side) (old new : List String) :
    (Core.of old new).front ++ t.of (Core.of old new).old (Core.of old new).new ++
      (Core.of old new).back = t.of old new := by
  have hfront := take_shared old new
  have hback := drop_shared_reverse (old.drop (shared old new)) (new.drop (shared old new))
  cases t with
  | old => simp only [Core.of, Side.of, List.append_assoc, List.take_append_drop]
  | new => simp only [Core.of, Side.of, hfront, hback, List.append_assoc, List.take_append_drop]

theorem Side.of_append {α : Type} (t : Side) (a b c d : List α) :
    t.of a b ++ t.of c d = t.of (a ++ c) (b ++ d) := by
  cases t <;> rfl

/-- A list that is cut at some point of the other one is put together again. -/
theorem view_changes (old new : List String) : view t (changes old new) = t.of old new := by
  fun_induction changes old new with
  | case1 old new c apart between ih₁ ih₂ =>
    have hbetween : view t between = t.of c.old c.new := by
      simp only [between]
      split
      · exact view_apart ..
      · split
        · exact view_apart ..
        · split
          · rename_i x y _ h
            rw [view_append, ih₁ x y h, ih₂ x y h, Side.of_append, List.take_append_drop,
              List.take_append_drop]
          · exact view_apart ..
    rw [view_append, view_append, view_kept, view_kept, hbetween]
    exact Core.joined t old new

end Compare

/-- The lines of a list of marked lines that are in one of the texts. -/
def linesOn (s : Side) (l : List (Mark × String)) : List String :=
  (l.filter fun p => p.1 = none ∨ p.1 = some s).map Prod.snd

@[simp] theorem linesOn_append (s : Side) (l m : List (Mark × String)) :
    linesOn s (l ++ m) = linesOn s l ++ linesOn s m := by
  simp [linesOn]

theorem linesOn_marked (t : Side) (m : Mark) (l : List String) :
    linesOn t (marked m l) = if m = none ∨ m = some t then l else [] := by
  cases m with
  | none => simp [linesOn, marked, List.filter_map, Function.comp_def]
  | some s => by_cases h : s = t <;> simp [linesOn, marked, List.filter_map, Function.comp_def, h]

theorem linesOn_arrange (removed added : List String) (l : List Change) :
    linesOn t (arrange removed added l) = t.of removed added ++ view t l := by
  fun_induction arrange removed added l with
  | case1 => cases t <;> simp [linesOn_marked, Side.of]
  | case2 removed added l r ih => cases t <;> simp [linesOn_marked, Side.of, ih]
  | case3 removed added l r ih => cases t <;> simp [Side.of, Change.on, ih]
  | case4 removed added l r ih => cases t <;> simp [Side.of, Change.on, ih]

theorem linesOn_markedLines (old new : String) :
    linesOn t (markedLines old new) = t.of (Text.pieces old) (Text.pieces new) := by
  rw [markedLines, linesOn_arrange, view_compacted, view_changes]
  cases t <;> rfl

/-- Marked lines that show two texts in full and tell them apart. -/
structure Displays (old new : String) (l : List (Mark × String)) : Prop where
  old : Text.Cut old.toList ((linesOn .old l).map String.toList)
  new : Text.Cut new.toList ((linesOn .new l).map String.toList)
  changed : ∃ p ∈ l, p.1 ≠ none

theorem map_toList_pieces (s : String) : (Text.pieces s).map String.toList = Text.piecesOf s.toList := by
  simp [Text.pieces, Function.comp_def]

theorem cut_pieces (s : String) : Text.Cut s.toList ((Text.pieces s).map String.toList) :=
  Text.cut_iff.2 (map_toList_pieces s)

/-- Different texts have different lines. -/
theorem eq_of_pieces {s t : String} (h : Text.pieces s = Text.pieces t) : s = t := by
  have hflat : ∀ u : String, ((Text.pieces u).map String.toList).flatten = u.toList := by
    intro u
    rw [map_toList_pieces, Text.flatten_piecesOf]
  rw [← String.toList_inj, ← hflat s, ← hflat t, h]

/-- Lines that are all kept are those of both texts. -/
theorem linesOn_of_kept {l : List (Mark × String)} (h : ∀ p ∈ l, p.1 = none) :
    linesOn t l = l.map Prod.snd := by
  have hall : l.filter (fun p => p.1 = none ∨ p.1 = some t) = l := by
    refine List.filter_eq_self.2 fun p hp => ?_
    simp [h p hp]
  rw [linesOn, hall]

theorem displays_markedLines {old new : String} (h : old ≠ new) :
    Displays old new (markedLines old new) := by
  have hold : linesOn .old (markedLines old new) = Text.pieces old := linesOn_markedLines old new
  have hnew : linesOn .new (markedLines old new) = Text.pieces new := linesOn_markedLines old new
  refine ⟨?_, ?_, ?_⟩
  · rw [hold]
    exact cut_pieces old
  · rw [hnew]
    exact cut_pieces new
  · by_contra hnone
    have hkept : ∀ p ∈ markedLines old new, p.1 = none := by simpa using hnone
    rw [linesOn_of_kept hkept] at hold hnew
    exact h (eq_of_pieces (hold.symm.trans hnew))

section Text

/-- A line as it is shown, which has a line feed if it had no ending. -/
inductive Ended : String → String → Prop
  | lineFeed (l : String) : Ended (l ++ "\n") (l ++ "\n")
  | carriageReturn (l : String) : Ended (l ++ "\r") (l ++ "\r")
  | bare {l : String} (no_lineFeed : l.toList.getLast? ≠ some '\n')
    (no_carriageReturn : l.toList.getLast? ≠ some '\r') : Ended l (l ++ "\n")

/-- A marked line as it is shown, behind a sign for the text that it is in. -/
inductive Shown : Mark × String → String → Prop
  | kept {l t : String} (line : Ended l t) : Shown (none, l) ("  " ++ t)
  | removed {l t : String} (line : Ended l t) : Shown (some .old, l) ("- " ++ t)
  | added {l t : String} (line : Ended l t) : Shown (some .new, l) ("+ " ++ t)

theorem ended_closed (l : String) : Ended l (closed l) := by
  rw [closed, Text.endsLine]
  cases hlast : l.toList.getLast? with
  | none => exact .bare (by simp [hlast]) (by simp [hlast])
  | some c =>
    obtain ⟨front, hfront⟩ := List.getLast?_eq_some_iff.1 hlast
    have hl : l = String.ofList front ++ String.ofList [c] := by
      rw [← String.ofList_append, ← hfront, String.ofList_toList]
    by_cases hlf : c = '\n'
    · subst hlf
      rw [if_pos (by rfl), hl]
      exact .lineFeed _
    · by_cases hcr : c = '\r'
      · subst hcr
        rw [if_pos (by rfl), hl]
        exact .carriageReturn _
      · rw [if_neg (by simp [hlf, hcr])]
        exact .bare (by simp [hlast, hlf]) (by simp [hlast, hcr])

theorem shown_lineText (p : Mark × String) : Shown p (lineText p) := by
  obtain ⟨m, l⟩ := p
  have hl := ended_closed l
  rcases m with _ | _ | _
  · exact .kept hl
  · exact .removed hl
  · exact .added hl

end Text

/-- There is no difference just of equal texts. Any other difference has every line of both texts, in their
orders and with its mark, and some line that is in one of them only. -/
theorem lineDiff?_in_full (old new : String) : (lineDiff? old new = none ↔ old = new) ∧
    (old = new ∨ ∃ l texts, Displays old new l ∧ List.Forall₂ Shown l texts ∧
      lineDiff? old new = some (String.join texts)) := by
  refine ⟨lineDiff?_eq_none_iff, ?_⟩
  by_cases h : old = new
  · exact .inl h
  · refine .inr ⟨markedLines old new, _, displays_markedLines h, ?_, if_neg h⟩
    exact List.forall₂_map_right_iff.2 (List.forall₂_same.2 fun p _ => shown_lineText p)

/-- A line that has become another one, and a last line without an ending. -/
example : lineDiff? "a\nb\nc" "a\nd\nc\n" = some "  a\n- b\n- c\n+ d\n+ c\n" := by cbv

end Diff
end TwinWall
