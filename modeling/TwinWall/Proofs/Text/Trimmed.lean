import TwinWall.Proofs.Text.Words
import TwinWall.Text.Blank

/-! What trimming leaves of a text: all of it but the blanks at its two ends. -/
namespace TwinWall
namespace Text

theorem exists_dropBlanks (s : List Char) :
    ∃ front, s = front ++ dropBlanks s ∧ ∀ c ∈ front, isBlank c = true :=
  ⟨s.takeWhile isBlank, List.takeWhile_append_dropWhile.symm, List.all_eq_true.1 List.all_takeWhile⟩

theorem exists_trimmed (s : List Char) : ∃ front back, s = front ++ (trimmed s ++ back) ∧
    (∀ c ∈ front, isBlank c = true) ∧ ∀ c ∈ back, isBlank c = true := by
  obtain ⟨front, hfront, hblank⟩ := exists_dropBlanks s
  obtain ⟨back, hback, hend⟩ := exists_dropBlanks (dropBlanks s).reverse
  refine ⟨front, back.reverse, ?_, hblank, fun c hc => hend c (List.mem_reverse.1 hc)⟩
  rw [trimmed, dropBlanksEnd, ← List.reverse_append, ← hback, List.reverse_reverse]
  exact hfront

theorem dropBlanks_append {front s : List Char} (h : ∀ c ∈ front, isBlank c = true) :
    dropBlanks (front ++ s) = dropBlanks s :=
  List.dropWhile_append_of_pos h

theorem dropBlanks_of_forall {s : List Char} (h : ∀ c ∈ s, isBlank c = false) :
    dropBlanks s = s := by
  cases s with
  | nil => rfl
  | cons c s => exact dropBlanks_eq_self (h c (by simp))

theorem dropBlanksEnd_append {s back : List Char} (hs : ∀ c ∈ s, isBlank c = false)
    (hback : ∀ c ∈ back, isBlank c = true) : dropBlanksEnd (s ++ back) = s := by
  have hrev : ∀ c ∈ s.reverse, isBlank c = false := fun c hc => hs c (List.mem_reverse.1 hc)
  have hbackrev : ∀ c ∈ back.reverse, isBlank c = true := fun c hc => hback c (List.mem_reverse.1 hc)
  rw [dropBlanksEnd, List.reverse_append, dropBlanks_append hbackrev, dropBlanks_of_forall hrev,
    List.reverse_reverse]

/-- A text without blanks is what trimming leaves of it between blanks. -/
theorem trimmed_between {front s back : List Char} (hfront : ∀ c ∈ front, isBlank c = true)
    (hs : ∀ c ∈ s, isBlank c = false) (hback : ∀ c ∈ back, isBlank c = true) :
    trimmed (front ++ (s ++ back)) = s := by
  have hend := dropBlanksEnd_append hs hback
  rw [trimmed, dropBlanks_append hfront]
  cases s with
  | nil =>
    have hnone := dropBlanks_append (s := []) hback
    rw [List.append_nil] at hnone
    rw [List.nil_append, hnone]
    rfl
  | cons c s =>
    rw [List.cons_append, dropBlanks_eq_self (hs c (by simp))]
    exact hend

theorem trimmed_of_forall {s : List Char} (h : ∀ c ∈ s, isBlank c = false) : trimmed s = s := by
  have hnone : ∀ c ∈ ([] : List Char), isBlank c = true := List.forall_mem_nil _
  simpa using trimmed_between hnone h hnone

/-- What stands between the blanks at the two ends of a text. -/
structure Trims (s t : List Char) : Prop where
  between : ∃ front back, s = front ++ (t ++ back) ∧ (∀ c ∈ front, isBlank c = true) ∧
    ∀ c ∈ back, isBlank c = true
  first : ∀ c ∈ t.head?, isBlank c = false
  last : ∀ c ∈ t.getLast?, isBlank c = false

theorem isBlank_head?_dropBlanks (s : List Char) : ∀ c ∈ (dropBlanks s).head?, isBlank c = false := by
  intro c hc
  have hhead := List.head?_dropWhile_not isBlank s
  rw [dropBlanks] at hc
  rw [hc] at hhead
  exact hhead

theorem isBlank_getLast?_dropBlanksEnd (s : List Char) :
    ∀ c ∈ (dropBlanksEnd s).getLast?, isBlank c = false := by
  rw [dropBlanksEnd, List.getLast?_reverse]
  exact isBlank_head?_dropBlanks s.reverse

theorem trims_trimmed (s : List Char) : Trims s (trimmed s) where
  between := exists_trimmed s
  first := by
    intro c hc
    obtain ⟨back, hback, -⟩ := exists_dropBlanks (dropBlanks s).reverse
    have hsplit : dropBlanks s = trimmed s ++ back.reverse := by
      rw [trimmed, dropBlanksEnd, ← List.reverse_append, ← hback, List.reverse_reverse]
    refine isBlank_head?_dropBlanks s c ?_
    rw [hsplit, List.head?_append, hc]
    rfl
  last := isBlank_getLast?_dropBlanksEnd (dropBlanks s)

/-- Trimming leaves nothing of blanks, and something of any other text. -/
theorem trimmed_eq_nil_iff {s : List Char} : trimmed s = [] ↔ allBlank s = true := by
  rw [allBlank, List.all_eq_true]
  constructor
  · intro h
    obtain ⟨front, back, hs, hfront, hback⟩ := exists_trimmed s
    rw [h, List.nil_append] at hs
    rw [hs]
    exact fun c hc => (List.mem_append.1 hc).elim (hfront c) (hback c)
  · intro h
    have hdrop := dropBlanks_append (s := []) h
    rw [List.append_nil] at hdrop
    rw [trimmed, hdrop]
    rfl

/-- No plain character is a blank. -/
theorem isBlank_of_isPlain {c : Char} (h : isPlain c = true) : isBlank c = false :=
  of_forall_ascii (P := fun c => isPlain c = true → isBlank c = false) (by decide)
    (toNat_lt_of_isPlain h) h

theorem IsPlain.trimmed_toList {w : String} (h : IsPlain w) : trimmed w.toList = w.toList :=
  trimmed_of_forall fun c hc => isBlank_of_isPlain (h.plain c hc)

end Text
end TwinWall
