import TwinWall.Proofs.Deploy.Nodes
import TwinWall.Proofs.Document.Built

/-! The text of a table as a document on its way to a node: no line of it ends the document, and its first
line names the table. -/
namespace TwinWall
namespace Deploy

open Document Policy Text

theorem head_blockLines (head : String) (ls : List String) :
    ∀ l ∈ blockLines head ls, l.toList.head? = some ' ' ∨ l = "" := by
  intro l hl
  rcases List.mem_cons.1 hl with rfl | hl
  · exact Or.inl (by simp)
  · rcases List.mem_append.1 hl with hl | hl
    · obtain ⟨m, -, rfl⟩ := List.mem_map.1 hl
      exact Or.inl (by simp)
    · simp only [List.mem_cons, List.not_mem_nil, or_false] at hl
      rcases hl with rfl | rfl
      · exact Or.inl (by simp)
      · exact Or.inr rfl

/-- A line is told from the delimiter by its first character. -/
theorem delimiter_notMem_lines (t : Table) : Plan.delimiter ∉ t.lines := by
  intro hmem
  have hblock : ∀ (head : String) (ls : List String), Plan.delimiter ∉ blockLines head ls := by
    intro head ls hl
    rcases head_blockLines head ls _ hl with h | h
    · exact absurd h (by decide)
    · exact absurd h (by decide)
  simp only [Table.lines, List.mem_cons, List.mem_append, List.mem_flatMap, List.not_mem_nil,
    or_false] at hmem
  rcases hmem with h | (⟨s, -, hl⟩ | ⟨c, -, hl⟩) | h
  · have hfirst := congrArg (fun l => l.toList.head?) h
    simp [Plan.delimiter] at hfirst
  · exact hblock _ _ hl
  · exact hblock _ _ hl
  · exact absurd h (by decide)

theorem stageable_text {t : Table} (h : t.Readable) : Plan.Stageable t.text := by
  refine ⟨t.lines.map String.toList, by simp [Table.lines], Table.toList_text t, fun l hl => ?_⟩
  obtain ⟨line, hline, rfl⟩ := List.mem_map.1 hl
  refine ⟨Table.feed_notMem_lines h line hline, fun heq => ?_⟩
  rw [String.toList_inj.1 heq] at hline
  exact delimiter_notMem_lines t hline

/-- The name of a table is read from the first line of its text. -/
theorem tableName_text {t : Table} (h : t.Readable) : tableName t.text = t.name := by
  have hno : ∀ c ∈ ("table inet " ++ t.name ++ " \x7b").toList, decide (c ≠ '\n') = true := by
    intro c hc
    have hfirst := Table.feed_notMem_lines h ("table inet " ++ t.name ++ " \x7b") (by simp [Table.lines])
    exact decide_eq_true fun heq => hfirst (heq ▸ hc)
  have hline : t.text.toList.takeWhile (· ≠ '\n') = ("table inet " ++ t.name ++ " \x7b").toList := by
    rw [Table.toList_text, Table.lines, feed_cons, List.takeWhile_append_of_pos hno]
    simp
  have hprefix : "table inet ".toList.isPrefixOf? ("table inet " ++ t.name ++ " \x7b").toList =
      some (t.name.toList ++ " \x7b".toList) :=
    List.isPrefixOf?_eq_some_iff_append_eq.2 (by simp)
  have hsuffix : " \x7b".toList.isSuffixOf? (t.name.toList ++ " \x7b".toList) = some t.name.toList :=
    List.isSuffixOf?_eq_some_iff_append_eq.2 rfl
  rw [tableName, hline, hprefix]
  simp only [Option.bind_eq_bind, Option.bind_some, hsuffix, String.ofList_toList]

namespace Plan

/-- What a plan needs for its commands to be taken as they are meant. -/
structure Fit (p : Plan) : Prop where
  namespaceName : IsName p.target.namespaceName
  table : IsName p.target.table
  stageable : Stageable p.document
  named : tableName p.document = p.target.table

end Plan

/-- A document that was built is fit for the target that it was built for, from any directory. -/
theorem fit_of_built {spec : Spec} {t : Target} {d : Document} {p : Ruleset} (h : Built spec t d p)
    (directory : String) : Plan.Fit ⟨t, directory, d.text⟩ := by
  refine ⟨h.namespaceName, h.table, stageable_text h.readable, ?_⟩
  calc tableName d.text = d.table.name := tableName_text h.readable
    _ = t.table := congrArg Table.name h.eq

theorem fit_of_build {spec : Spec} {t : Target} {d : Document} (h : Document.build spec t = .ok d)
    (directory : String) : Plan.Fit ⟨t, directory, d.text⟩ := by
  obtain ⟨p, hbuilt⟩ := Document.built_of_build h
  exact fit_of_built hbuilt directory

end Deploy
end TwinWall
