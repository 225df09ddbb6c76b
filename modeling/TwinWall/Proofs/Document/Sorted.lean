import Mathlib.Data.List.Basic

/-! Sorting by a whole number. Among items of equal number the sort keeps the order that they had, so a
sorted list is settled by the items of each number. -/
namespace TwinWall
namespace Document

variable {α : Type} (key : α → Int)

theorem key_trans (a b c : α) (hab : decide (key a ≤ key b) = true)
    (hbc : decide (key b ≤ key c) = true) : decide (key a ≤ key c) = true := by
  simp only [decide_eq_true_eq] at hab hbc ⊢
  omega

theorem key_total (a b : α) : (decide (key a ≤ key b) || decide (key b ≤ key a)) = true := by
  simp only [Bool.or_eq_true, decide_eq_true_eq]
  omega

theorem pairwise_sorted (l : List α) :
    (l.mergeSort fun a b => key a ≤ key b).Pairwise fun a b => key a ≤ key b := by
  have hpair := List.pairwise_mergeSort (key_trans key) (key_total key) l
  exact hpair.imp of_decide_eq_true

/-- The sort is stable. -/
theorem filter_sorted (k : Int) (l : List α) :
    (l.mergeSort fun a b => key a ≤ key b).filter (key · = k) = l.filter (key · = k) := by
  have hpair : (l.filter (key · = k)).Pairwise fun a b => decide (key a ≤ key b) = true := by
    refine List.pairwise_iff_forall_sublist.2 fun {a b} hab => decide_eq_true ?_
    have ha : key a = k := by simpa using (List.mem_filter.1 (hab.subset (by simp))).2
    have hb : key b = k := by simpa using (List.mem_filter.1 (hab.subset (by simp))).2
    omega
  -- What is in order already stands in the sorted list as it was.
  have hsub := (List.sublist_mergeSort (key_trans key) (key_total key) hpair
    List.filter_sublist).filter (key · = k)
  have hlength := ((List.mergeSort_perm l fun a b => key a ≤ key b).filter (key · = k)).length_eq
  rw [List.filter_filter] at hsub
  simp only [Bool.and_self] at hsub
  exact (hsub.eq_of_length hlength.symm).symm

theorem mem_iff_of_filter {l m : List α} (h : ∀ k, l.filter (key · = k) = m.filter (key · = k))
    (a : α) : a ∈ l ↔ a ∈ m := by
  have ha := congrArg (a ∈ ·) (h (key a))
  simpa using ha

/-- Sorted lists with the same items of each number are the same. -/
theorem eq_of_pairwise_of_filter {l m : List α} (hl : l.Pairwise fun a b => key a ≤ key b)
    (hm : m.Pairwise fun a b => key a ≤ key b)
    (h : ∀ k, l.filter (key · = k) = m.filter (key · = k)) : l = m := by
  have hmem := mem_iff_of_filter key h
  induction l generalizing m with
  | nil =>
    cases m with
    | nil => rfl
    | cons b m => simpa using (hmem b).2 (by simp)
  | cons a l ih =>
    cases m with
    | nil => simpa using (hmem a).1 (by simp)
    | cons b m =>
      obtain ⟨hal, hlrest⟩ := List.pairwise_cons.1 hl
      obtain ⟨hbm, hmrest⟩ := List.pairwise_cons.1 hm
      -- Each head is in the other list, so neither is less than the other.
      have hab : key a = key b := by
        apply Int.le_antisymm
        · rcases List.mem_cons.1 ((hmem b).2 (by simp)) with rfl | hb
          · exact Int.le_refl _
          · exact hal b hb
        · rcases List.mem_cons.1 ((hmem a).1 (by simp)) with rfl | ha
          · exact Int.le_refl _
          · exact hbm a ha
      have hhead : a = b := by
        have hk := h (key a)
        rw [List.filter_cons_of_pos (by simp), List.filter_cons_of_pos (by simp [hab])] at hk
        exact (List.cons.inj hk).1
      subst hhead
      have hrest : ∀ k, l.filter (key · = k) = m.filter (key · = k) := by
        intro k
        have hk := h k
        by_cases ha : key a = k
        · rw [List.filter_cons_of_pos (by simpa using ha),
            List.filter_cons_of_pos (by simpa using ha)] at hk
          exact (List.cons.inj hk).2
        · rwa [List.filter_cons_of_neg (by simpa using ha),
            List.filter_cons_of_neg (by simpa using ha)] at hk
      rw [ih hlrest hmrest hrest (mem_iff_of_filter key hrest)]

/-- The sorted list depends on the items of each number alone. -/
theorem sorted_eq_of_filter {l m : List α} (h : ∀ k, l.filter (key · = k) = m.filter (key · = k)) :
    (l.mergeSort fun a b => key a ≤ key b) = m.mergeSort fun a b => key a ≤ key b := by
  refine eq_of_pairwise_of_filter key (pairwise_sorted key l) (pairwise_sorted key m) fun k => ?_
  rw [filter_sorted, filter_sorted, h]

end Document
end TwinWall
