import TwinWall.Proofs.Document.Built

/-! The outline of a text: the blocks that it consists of, each with the words of its rows. A text has one
outline at most, and the outline of a table is that of its sets and then of its chains. -/
namespace TwinWall
namespace Document

open Policy Text

/-- A block of a text, with the words of the rows between its braces. -/
structure Section where
  kind : String
  name : String
  rows : List (List String)
deriving DecidableEq

namespace Section

/-- The rows of a block with those of its braces. -/
def lines (s : Section) : List (List String) := [s.kind, s.name, "\x7b"] :: (s.rows ++ [["\x7d"]])

def ofSet (s : NamedSet) : Section := ⟨"set", s.name, rowsOf (setLines s)⟩

def ofChain (c : Chain) : Section := ⟨"chain", c.name, c.bodyRows⟩

@[simp] theorem kind_ofSet (s : NamedSet) : (ofSet s).kind = "set" := rfl

@[simp] theorem name_ofSet (s : NamedSet) : (ofSet s).name = s.name := rfl

@[simp] theorem kind_ofChain (c : Chain) : (ofChain c).kind = "chain" := rfl

@[simp] theorem name_ofChain (c : Chain) : (ofChain c).name = c.name := rfl

@[simp] theorem rows_ofChain (c : Chain) : (ofChain c).rows = c.bodyRows := rfl

end Section

def namesOf (kind : String) (l : List Section) : List String := (l.filter (·.kind = kind)).map (·.name)

/-- A table of the given name is all that the text has, and these blocks are all that the table has. -/
structure Outline (text table : String) (l : List Section) : Prop where
  rows : Text.rows text.toList =
    ["table", "inet", table, "\x7b"] :: (l.flatMap Section.lines ++ [["\x7d"]])
  closed : ∀ s ∈ l, ["\x7d"] ∉ s.rows

/-- Two lists are cut alike at the first place of a mark. -/
theorem eq_of_append_mark {α : Type} {a b x y : List α} {mark : α} (ha : mark ∉ a) (hb : mark ∉ b)
    (h : a ++ mark :: x = b ++ mark :: y) : a = b ∧ x = y := by
  rcases List.append_eq_append_iff.1 h with ⟨c, rfl, hx⟩ | ⟨c, rfl, hy⟩
  · cases c with
    | nil => simpa using hx
    | cons d c =>
      obtain ⟨rfl, -⟩ := List.cons.inj hx
      exact absurd (by simp) hb
  · cases c with
    | nil => simpa [eq_comm] using hy
    | cons d c =>
      obtain ⟨rfl, -⟩ := List.cons.inj hy
      exact absurd (by simp) ha

theorem eq_of_flatMap_lines {l m : List Section} (hl : ∀ s ∈ l, ["\x7d"] ∉ s.rows)
    (hm : ∀ s ∈ m, ["\x7d"] ∉ s.rows)
    (h : l.flatMap Section.lines ++ [["\x7d"]] = m.flatMap Section.lines ++ [["\x7d"]]) : l = m := by
  induction l generalizing m with
  | nil =>
    cases m with
    | nil => rfl
    | cons s m => simp [Section.lines] at h
  | cons s l ih =>
    cases m with
    | nil => simp [Section.lines] at h
    | cons u m =>
      obtain ⟨⟨hkind, hname⟩, hrows⟩ : (s.kind = u.kind ∧ s.name = u.name) ∧
          s.rows ++ ["\x7d"] :: (l.flatMap Section.lines ++ [["\x7d"]]) =
            u.rows ++ ["\x7d"] :: (m.flatMap Section.lines ++ [["\x7d"]]) := by
        simpa [Section.lines] using h
      obtain ⟨hbody, hrest⟩ := eq_of_append_mark (hl s (by simp)) (hm u (by simp)) hrows
      have hrest := ih (fun x hx => hl x (by simp [hx])) (fun x hx => hm x (by simp [hx])) hrest
      have hhead : s = u := by
        cases s
        cases u
        simp_all
      rw [hhead, hrest]

theorem Outline.unique {text table other : String} {l m : List Section} (h : Outline text table l)
    (k : Outline text other m) : table = other ∧ l = m := by
  have hrows := h.rows.symm.trans k.rows
  simp only [List.cons.injEq, true_and, and_true] at hrows
  exact ⟨hrows.1, eq_of_flatMap_lines h.closed k.closed hrows.2⟩

def Table.outline (t : Table) : List Section :=
  t.sets.map Section.ofSet ++ t.chains.map Section.ofChain

theorem namesOf_outline (t : Table) :
    namesOf "set" t.outline = t.sets.map (·.name) ∧
      namesOf "chain" t.outline = t.chains.map (·.name) := by
  simp [namesOf, Table.outline, List.filter_map, Function.comp_def]

theorem Table.outline_text {t : Table} (h : t.Readable) : Outline t.text t.name t.outline := by
  constructor
  · rw [toList_text, rows_feed (feed_notMem_lines h), rowsOf_lines h, outline, List.flatMap_append,
      List.flatMap_map, List.flatMap_map]
    rfl
  · intro s hs
    rcases List.mem_append.1 hs with hs | hs
    · obtain ⟨n, hn, rfl⟩ := List.mem_map.1 hs
      exact fun hbrace => setRows_ne_brace (h.sets n hn) _ hbrace rfl
    · obtain ⟨c, hc, rfl⟩ := List.mem_map.1 hs
      exact fun hbrace => Chain.bodyRows_ne_brace (h.chains c hc) _ hbrace rfl

end Document
end TwinWall
