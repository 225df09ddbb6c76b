import TwinWall.Text.Lines

/-! Lines of a text with their endings. A line ends with a line feed, with a carriage return and a line feed,
or with a carriage return that has no line feed behind it; the last line may have no ending. -/
namespace TwinWall
namespace Text

/-- Characters within a line. -/
def Unbroken (l : List Char) : Prop := ∀ c ∈ l, c ≠ '\n' ∧ c ≠ '\r'

/-- A text cut into its lines. -/
inductive Cut : List Char → List (List Char) → Prop
  | nothing : Cut [] []
  | last {l : List Char} (inner : Unbroken l) (ne_nil : l ≠ []) : Cut l [l]
  | lineFeed {l r : List Char} {ls : List (List Char)} (inner : Unbroken l) (rest : Cut r ls) :
    Cut (l ++ '\n' :: r) ((l ++ ['\n']) :: ls)
  | both {l r : List Char} {ls : List (List Char)} (inner : Unbroken l) (rest : Cut r ls) :
    Cut (l ++ '\r' :: '\n' :: r) ((l ++ ['\r', '\n']) :: ls)
  | carriageReturn {l r : List Char} {ls : List (List Char)} (inner : Unbroken l)
    (alone : r.head? ≠ some '\n') (rest : Cut r ls) : Cut (l ++ '\r' :: r) ((l ++ ['\r']) :: ls)

theorem unbroken_cons {c : Char} {l : List Char} :
    Unbroken (c :: l) ↔ (c ≠ '\n' ∧ c ≠ '\r') ∧ Unbroken l := List.forall_mem_cons

theorem piecesOf_cons {c : Char} (h : c ≠ '\n' ∧ c ≠ '\r') (r : List Char) :
    piecesOf (c :: r) = onFirst c (piecesOf r) := by
  rw [piecesOf]
  · exact h.1
  · rintro _ rfl
    exact absurd rfl h.2
  · exact h.2

/-- What stands in front of an ending goes to its line. -/
theorem piecesOf_append {l r x : List Char} {ls : List (List Char)} (h : Unbroken l)
    (hr : piecesOf r = x :: ls) : piecesOf (l ++ r) = (l ++ x) :: ls := by
  induction l with
  | nil => exact hr
  | cons c l ih =>
    obtain ⟨hc, hl⟩ := unbroken_cons.1 h
    rw [List.cons_append, piecesOf_cons hc, ih hl]
    rfl

theorem piecesOf_unbroken {l : List Char} (h : Unbroken l) (hne : l ≠ []) : piecesOf l = [l] := by
  induction l with
  | nil => exact absurd rfl hne
  | cons c l ih =>
    obtain ⟨hc, hl⟩ := unbroken_cons.1 h
    rw [piecesOf_cons hc]
    by_cases hnil : l = []
    · subst hnil
      rfl
    · rw [ih hl hnil]
      rfl

theorem piecesOf_carriageReturn {r : List Char} (h : r.head? ≠ some '\n') :
    piecesOf ('\r' :: r) = ['\r'] :: piecesOf r := by
  rw [piecesOf]
  rintro _ rfl
  exact h rfl

/-- One more character at the beginning of the first line. -/
theorem Cut.onFirst {c : Char} {r : List Char} {ls : List (List Char)} (hc : c ≠ '\n' ∧ c ≠ '\r')
    (h : Cut r ls) : Cut (c :: r) (onFirst c ls) := by
  cases h with
  | nothing => exact .last (unbroken_cons.2 ⟨hc, nofun⟩) (by simp)
  | last inner => exact .last (unbroken_cons.2 ⟨hc, inner⟩) (by simp)
  | lineFeed inner rest => exact .lineFeed (unbroken_cons.2 ⟨hc, inner⟩) rest
  | both inner rest => exact .both (unbroken_cons.2 ⟨hc, inner⟩) rest
  | carriageReturn inner alone rest =>
    exact .carriageReturn (unbroken_cons.2 ⟨hc, inner⟩) alone rest

theorem unbroken_nil : Unbroken [] := nofun

theorem cut_piecesOf (s : List Char) : Cut s (piecesOf s) := by
  fun_induction piecesOf s with
  | case1 => exact .nothing
  | case2 r ih => exact .lineFeed unbroken_nil ih
  | case3 r ih => exact .both unbroken_nil ih
  | case4 r hr ih =>
    refine .carriageReturn unbroken_nil (fun hlf => ?_) ih
    obtain ⟨r', rfl⟩ := List.head?_eq_some_iff.1 hlf
    exact hr r' rfl
  | case5 c r hlf _ hcr ih => exact ih.onFirst ⟨hlf, hcr⟩

/-- There is one way only to cut a text. -/
theorem cut_iff {s : List Char} {ls : List (List Char)} : Cut s ls ↔ ls = piecesOf s := by
  constructor
  · intro h
    induction h with
    | nothing => rfl
    | last inner ne_nil => exact (piecesOf_unbroken inner ne_nil).symm
    | lineFeed inner _ ih => rw [ih, piecesOf_append inner rfl]
    | both inner _ ih => rw [ih, piecesOf_append inner rfl]
    | carriageReturn inner alone _ ih => rw [ih, piecesOf_append inner (piecesOf_carriageReturn alone)]
  · rintro rfl
    exact cut_piecesOf s

section Lines

theorem linesOf_cons {c : Char} (h : c ≠ '\n' ∧ c ≠ '\r') (r : List Char) :
    linesOf (c :: r) = onFirst c (linesOf r) := by
  rw [linesOf]
  · exact h.1
  · rintro _ rfl
    exact absurd rfl h.2

/-- A line with its line feed is read off the front. -/
theorem linesOf_lineFeed {l : List Char} (h : Unbroken l) (r : List Char) :
    linesOf (l ++ '\n' :: r) = l :: linesOf r := by
  induction l with
  | nil => rfl
  | cons c l ih =>
    obtain ⟨hc, hl⟩ := unbroken_cons.1 h
    rw [List.cons_append, linesOf_cons hc, ih hl]
    rfl

theorem onFirst_append {c : Char} {ls : List (List Char)} (h : ls ≠ []) (ms : List (List Char)) :
    onFirst c (ls ++ ms) = onFirst c ls ++ ms := by
  obtain ⟨l, ls, rfl⟩ := List.exists_cons_of_ne_nil h
  rfl

/-- What ends in a line feed has the same lines in front of anything. -/
theorem linesOf_append (s r : List Char) :
    linesOf (s ++ '\n' :: r) = linesOf (s ++ ['\n']) ++ linesOf r := by
  fun_induction linesOf s with
  | case1 => rfl
  | case2 s ih => simpa [linesOf] using ih
  | case3 s ih => simpa [linesOf] using ih
  | case4 c s hlf hcr ih =>
    by_cases hend : c = '\r' ∧ s = []
    · obtain ⟨rfl, rfl⟩ := hend
      rfl
    · have hstep : ∀ t, linesOf (c :: (s ++ '\n' :: t)) = onFirst c (linesOf (s ++ '\n' :: t)) := by
        intro t
        rw [linesOf]
        · exact hlf
        · intro u hc hu
          cases s with
          | nil => exact hend ⟨hc, rfl⟩
          | cons d s =>
            rw [List.cons_append, List.cons.injEq] at hu
            exact hcr s hc (by rw [hu.1])
      rw [List.cons_append, List.cons_append, hstep, hstep, ih, onFirst_append]
      rw [Ne, linesOf_eq_nil]
      simp

/-- A text and its first line, without the ending. -/
inductive FirstLine : List Char → List Char → Prop
  | whole {l : List Char} (inner : '\n' ∉ l) : FirstLine l l
  | lineFeed {l r : List Char} (inner : '\n' ∉ l) (alone : l.getLast? ≠ some '\r') :
    FirstLine (l ++ '\n' :: r) l
  | both {l r : List Char} (inner : '\n' ∉ l) : FirstLine (l ++ '\r' :: '\n' :: r) l

theorem FirstLine.cons {c : Char} {s l : List Char} (hlf : c ≠ '\n')
    (hcr : ∀ r, c = '\r' → s ≠ '\n' :: r) (h : FirstLine s l) : FirstLine (c :: s) (c :: l) := by
  have hinner : ∀ {l}, '\n' ∉ l → '\n' ∉ c :: l := fun h => by simp [h, Ne.symm hlf]
  cases h with
  | whole inner => exact .whole (hinner inner)
  | @lineFeed l r inner alone =>
    refine .lineFeed (hinner inner) ?_
    cases l with
    | nil =>
      rintro ⟨⟩
      exact hcr r rfl rfl
    | cons d l => rwa [List.getLast?_cons_cons]
  | both inner => exact .both (hinner inner)

/-- The first line of any text but the empty one. -/
theorem firstLine_linesOf {s : List Char} (h : s ≠ []) : FirstLine s ((linesOf s).headD []) := by
  fun_induction linesOf s with
  | case1 => exact absurd rfl h
  | case2 r ih => exact .lineFeed (l := []) List.not_mem_nil (by simp)
  | case3 r ih => exact .both (l := []) List.not_mem_nil
  | case4 c r hlf hcr ih =>
    by_cases hr : r = []
    · subst hr
      exact .whole (by simpa using Ne.symm hlf)
    · have hne : linesOf r ≠ [] := fun hnil => hr (linesOf_eq_nil.1 hnil)
      obtain ⟨l, ls, hls⟩ := List.exists_cons_of_ne_nil hne
      have hfirst := ih hr
      rw [hls] at hfirst ⊢
      exact hfirst.cons hlf fun t hc heq => hcr t hc heq

end Lines

end Text
end TwinWall
