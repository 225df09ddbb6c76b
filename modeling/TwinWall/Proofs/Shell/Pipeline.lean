import TwinWall.Proofs.Shell.Script
import TwinWall.Remote.Reply

/-! Pipelines as they are run. Every command reads what the one before it has written, and the status of the
last one is that of all, whatever became of the others. -/
namespace TwinWall
namespace Shell

open Remote Text

/-- What a command does to a system, with the text that it reads. -/
abbrev Programs (σ : Type) := σ → Command → String → σ × Output

def runPipeline {σ : Type} (programs : Programs σ) : σ → String → List Command → σ × Output
  | s, _, [] => (s, ⟨0, "", ""⟩)
  | s, input, [c] => programs s c input
  | s, input, c :: d :: cs =>
    let (s', out) := programs s c input
    let (s'', last) := runPipeline programs s' out.stdout (d :: cs)
    (s'', { last with stderr := out.stderr ++ last.stderr })

/-- The lines of a text. There is none behind a line feed at its end. -/
def linesRead (s : List Char) : List (List Char) :=
  let ls := s.splitOn '\n'
  if ls.getLast? = some [] then ls.dropLast else ls

@[simp] theorem linesRead_nil : linesRead [] = [] := by
  simp [linesRead]

theorem linesRead_append (a b : List Char) :
    linesRead (a ++ '\n' :: b) = a.splitOn '\n' ++ linesRead b := by
  have hsplit : (a ++ '\n' :: b).splitOn '\n' = a.splitOn '\n' ++ b.splitOn '\n' :=
    List.splitOn_append_cons_of_beq a b (beq_self_eq_true '\n')
  have hne : b.splitOn '\n' ≠ [] := List.splitOn_ne_nil '\n' b
  have hlast : (a.splitOn '\n' ++ b.splitOn '\n').getLast? = (b.splitOn '\n').getLast? := by
    rw [List.getLast?_append, List.getLast?_eq_some_getLast hne]
    rfl
  simp only [linesRead, hsplit, hlast, List.dropLast_append_of_ne_nil hne]
  split <;> rfl

/-- A line is read whatever stands in the lines before and behind it. -/
theorem mem_linesRead {l : List Char} {ls : List (List Char)} (hl : l ∈ ls) (hno : '\n' ∉ l) :
    l ∈ linesRead (unlines ls) := by
  induction ls with
  | nil => cases hl
  | cons m ls ih =>
    rw [unlines_cons, linesRead_append]
    rcases List.mem_cons.1 hl with rfl | hl
    · rw [List.splitOn_eq_singleton hno]
      exact List.mem_append_left _ (List.mem_singleton_self _)
    · exact List.mem_append_right _ (ih hl)

/-- A quiet search for a whole line of a fixed text. -/
def grep (line input : String) : Output :=
  ⟨if line.toList ∈ linesRead input.toList then 0 else 1, "", ""⟩

/-- In a text of no lines there is nothing to be found. -/
theorem grep_empty (line : String) : grep line "" = ⟨1, "", ""⟩ := by
  simp [grep]

end Shell
end TwinWall
