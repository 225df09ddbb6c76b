import Mathlib.Data.List.Basic
import TwinWall.Deploy.Step

/-! Where documents are staged. The name of the file joins a namespace and a table by an underscore, which
both of them may hold, so that the file does not always tell which targets it is for. -/
namespace TwinWall
namespace Deploy

open Policy

/-- A part of the first table stands at the end of the second namespace instead. -/
def Shifted (t u : Target) : Prop :=
  ∃ w, u.namespaceName = t.namespaceName ++ "_" ++ w ∧ t.table = w ++ "_" ++ u.table

/-- Different targets whose names read alike when they are joined. -/
def Confused (t u : Target) : Prop := Shifted t u ∨ Shifted u t

/-- Lists that are joined by a mark differ in their parts only if the mark stands in one of these. -/
theorem append_mark_eq_iff {α : Type} {mark : α} {a b c d : List α} :
    a ++ mark :: b = c ++ mark :: d ↔
      (a = c ∧ b = d) ∨ (∃ w, c = a ++ mark :: w ∧ b = w ++ mark :: d) ∨
        ∃ w, a = c ++ mark :: w ∧ d = w ++ mark :: b := by
  constructor
  · intro h
    rcases List.append_eq_append_iff.1 h with ⟨w, rfl, hw⟩ | ⟨w, rfl, hw⟩
    · cases w with
      | nil => exact Or.inl (by simpa using hw)
      | cons x w =>
        obtain ⟨rfl, rfl⟩ := List.cons.inj hw
        exact Or.inr (Or.inl ⟨w, rfl, rfl⟩)
    · cases w with
      | nil => exact Or.inl (by simpa using hw.symm)
      | cons x w =>
        obtain ⟨rfl, rfl⟩ := List.cons.inj hw
        exact Or.inr (Or.inr ⟨w, rfl, rfl⟩)
  · rintro (⟨rfl, rfl⟩ | ⟨w, rfl, rfl⟩ | ⟨w, rfl, rfl⟩) <;> simp

theorem shifted_iff_toList {t u : Target} : Shifted t u ↔
    ∃ w, u.namespaceName.toList = t.namespaceName.toList ++ '_' :: w ∧
      t.table.toList = w ++ '_' :: u.table.toList := by
  constructor
  · rintro ⟨w, hn, ht⟩
    exact ⟨w.toList, by simp [hn], by simp [ht]⟩
  · rintro ⟨w, hn, ht⟩
    refine ⟨String.ofList w, String.toList_inj.1 ?_, String.toList_inj.1 ?_⟩
    · simp [hn]
    · simp [ht]

namespace Plan

theorem fileName_eq_iff {t u : Target} : fileName t = fileName u ↔
    (t.namespaceName = u.namespaceName ∧ t.table = u.table) ∨ Confused t u := by
  have htext : ∀ t : Target, (fileName t).toList =
      "podfw_".toList ++ (t.namespaceName.toList ++ '_' :: t.table.toList) ++ ".nft".toList := by
    intro t
    simp [fileName]
  rw [← String.toList_inj, htext, htext, List.append_left_inj, List.append_right_inj,
    append_mark_eq_iff, String.toList_inj, String.toList_inj, Confused, shifted_iff_toList,
    shifted_iff_toList]

theorem below_inj {directory name name' : String} :
    below directory name = below directory name' ↔ name = name' := by
  unfold below
  split <;> simp [← String.toList_inj]

/-- Two targets come to one file in a directory just if they are the same or are confused. -/
theorem path_eq_iff {t u : Target} (directory document document' : String) :
    path ⟨t, directory, document⟩ = path ⟨u, directory, document'⟩ ↔
      (t.namespaceName = u.namespaceName ∧ t.table = u.table) ∨ Confused t u :=
  below_inj.trans fileName_eq_iff

end Plan

theorem Shifted.ne {t u : Target} (h : Shifted t u) :
    t.namespaceName ≠ u.namespaceName ∧ t.table ≠ u.table := by
  obtain ⟨w, hn, ht⟩ := h
  have hmark : "_".length = 1 := rfl
  constructor
  · intro heq
    have hlength := congrArg String.length (heq.trans hn)
    rw [String.length_append, String.length_append] at hlength
    omega
  · intro heq
    have hlength := congrArg String.length (ht.symm.trans heq)
    rw [String.length_append, String.length_append] at hlength
    omega

/-- Confused targets have neither a name of a namespace nor one of a table in common. -/
theorem Confused.ne {t u : Target} (h : Confused t u) :
    t.namespaceName ≠ u.namespaceName ∧ t.table ≠ u.table := by
  rcases h with h | h
  · exact h.ne
  · exact h.ne.imp Ne.symm Ne.symm

end Deploy
end TwinWall
