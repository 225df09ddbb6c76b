import TwinWall.Deploy.Step
import TwinWall.Proofs.Policy.Sound
import TwinWall.Proofs.Shell.Quoting

/-! What a shell makes of the commands of a plan: the words that are meant, the one path in all of them, and
the document byte by byte. -/
namespace TwinWall
namespace Deploy

open Policy Shell Text

namespace Plan

/-- The words of a command to the packet filter in the namespace of a plan. -/
def nftWords (p : Plan) (args : List String) : List String :=
  ["ip", "netns", "exec", p.target.namespaceName, "nft"] ++ args

/-- The line that stands for the table in a listing of tables. -/
def tableLine (p : Plan) : String := "table inet " ++ p.target.table

/-- The commands that are meant by a step. -/
def pipeline (p : Plan) : Step → List Command
  | .writing => [{ words := ["cat"], output := some p.path, input := some p.document }]
  | .checking => [{ words := p.nftWords ["--check", "--file", p.path] }]
  | .lookingUp => [{ words := p.nftWords ["list", "tables"] }, { words := ["grep", "-qxF", p.tableLine] }]
  | .flushing => [{ words := p.nftWords ["delete", "table", "inet", p.target.table] }]
  | .applying => [{ words := p.nftWords ["--file", p.path] }]
  | .cleaning => [{ words := ["rm", "--force", p.path] }]
  | .listing => [{ words := p.nftWords ["list", "table", "inet", p.target.table] }]

def nftLexemes (p : Plan) (args : List Lexeme) : List Lexeme :=
  ["ip", "netns", "exec", p.target.namespaceName, "nft"].map (.word false) ++ args

/-- The lexemes of the line of a command. Only the path and the line of the table are quoted. -/
def lexemes (p : Plan) : Step → List Lexeme
  | .writing => [.word false "cat", .output, .word true p.path, .document, .word true delimiter]
  | .checking => p.nftLexemes [.word false "--check", .word false "--file", .word true p.path]
  | .lookingUp =>
    p.nftLexemes [.word false "list", .word false "tables", .pipe, .word false "grep",
      .word false "-qxF", .word true p.tableLine]
  | .flushing =>
    p.nftLexemes [.word false "delete", .word false "table", .word false "inet",
      .word false p.target.table]
  | .applying => p.nftLexemes [.word false "--file", .word true p.path]
  | .cleaning => [.word false "rm", .word false "--force", .word true p.path]
  | .listing =>
    p.nftLexemes [.word false "list", .word false "table", .word false "inet",
      .word false p.target.table]

/-- Lines of which none is taken for the end of the document. -/
def Stageable (document : String) : Prop :=
  ∃ ls : List (List Char), ls ≠ [] ∧ document.toList = unlines ls ∧
    ∀ l ∈ ls, '\n' ∉ l ∧ l ≠ delimiter.toList

theorem ended_of_stageable {document : String} (h : Stageable document) :
    ended document = document := by
  obtain ⟨ls, hne, htext, -⟩ := h
  have hlast : document.toList.getLast? = some '\n' := by
    obtain ⟨init, l, rfl⟩ := List.eq_nil_or_concat ls |>.resolve_left hne
    rw [htext]
    simp [unlines]
  exact if_pos hlast

variable {p : Plan}

theorem command_eq {step : Step} (h : step ≠ .writing) :
    p.command step = " ".intercalate ((p.lexemes step).map Lexeme.text) := by
  apply String.toList_inj.1
  cases step with
  | writing => exact absurd rfl h
  | _ => simp [command, nft, lexemes, nftLexemes, Lexeme.text, tableLine]

/-- The fixed words of the commands. -/
def fixedWords : List String :=
  ["cat", "rm", "--force", "ip", "netns", "exec", "nft", "--check", "--file", "list", "tables", "grep",
    "-qxF", "delete", "table", "inet"]

theorem plain_fixed {w : String} (h : w ∈ fixedWords) : (Lexeme.word false w).Plain := by
  have hall : ∀ w ∈ fixedWords, w.toList ≠ [] ∧ w.toList.all isPlain = true := by decide +kernel
  exact ⟨(hall w h).1, List.all_eq_true.1 (hall w h).2⟩

theorem plain_nftLexemes (hn : IsName p.target.namespaceName) {args : List Lexeme}
    (h : ∀ l ∈ args, l.Plain) : ∀ l ∈ p.nftLexemes args, l.Plain := by
  simp only [nftLexemes, List.map, List.cons_append, List.nil_append, List.forall_mem_cons]
  exact ⟨plain_fixed (by decide), plain_fixed (by decide), plain_fixed (by decide), hn.isPlain,
    plain_fixed (by decide), h⟩

theorem plain_lexemes (hn : IsName p.target.namespaceName) (ht : IsName p.target.table)
    (step : Step) : ∀ l ∈ p.lexemes step, l.Plain := by
  cases step with
  | writing =>
    simp only [lexemes, List.forall_mem_cons]
    exact ⟨plain_fixed (by decide), trivial, trivial, trivial, trivial, nofun⟩
  | checking =>
    refine plain_nftLexemes hn ?_
    simp only [List.forall_mem_cons]
    exact ⟨plain_fixed (by decide), plain_fixed (by decide), trivial, nofun⟩
  | lookingUp =>
    refine plain_nftLexemes hn ?_
    simp only [List.forall_mem_cons]
    exact ⟨plain_fixed (by decide), plain_fixed (by decide), trivial, plain_fixed (by decide),
      plain_fixed (by decide), trivial, nofun⟩
  | flushing =>
    refine plain_nftLexemes hn ?_
    simp only [List.forall_mem_cons]
    exact ⟨plain_fixed (by decide), plain_fixed (by decide), plain_fixed (by decide), ht.isPlain,
      nofun⟩
  | applying =>
    refine plain_nftLexemes hn ?_
    simp only [List.forall_mem_cons]
    exact ⟨plain_fixed (by decide), trivial, nofun⟩
  | cleaning =>
    simp only [lexemes, List.forall_mem_cons]
    exact ⟨plain_fixed (by decide), plain_fixed (by decide), trivial, nofun⟩
  | listing =>
    refine plain_nftLexemes hn ?_
    simp only [List.forall_mem_cons]
    exact ⟨plain_fixed (by decide), plain_fixed (by decide), plain_fixed (by decide), ht.isPlain,
      nofun⟩

theorem simples?_lexemes {step : Step} (h : step ≠ .writing) :
    simples? {} (p.lexemes step) = some ((p.pipeline step).map fun c => ⟨c.words, none, none⟩) := by
  cases step with
  | writing => exact absurd rfl h
  | _ => rfl

/-- Commands without documents take nothing from behind their line. -/
theorem commands?_map (cs : List Command) (h : ∀ c ∈ cs, c.output = none ∧ c.input = none)
    (rest : List Char) :
    commands? (cs.map fun c => ⟨c.words, none, none⟩) rest = some (cs, rest) := by
  induction cs with
  | nil => rfl
  | cons c cs ih =>
    have ih := ih fun d hd => h d (by simp [hd])
    obtain ⟨hout, hin⟩ := h c (by simp)
    rw [List.map_cons, commands?, ih]
    obtain ⟨words, output, input⟩ := c
    cases hout
    cases hin
    rfl

/-- The line of the command that stages a document ends before the document, whatever this is. -/
theorem line?_writing (p : Plan) : line? .plain none (p.command .writing).toList =
    some (p.lexemes .writing, (ended p.document).toList ++ (delimiter.toList ++ ['\n'])) := by
  have hchars : (p.command .writing).toList =
      (Lexeme.word false "cat").text.toList ++ ' ' :: (Lexeme.output.text.toList ++ ' ' ::
        ((Lexeme.word true p.path).text.toList ++ ' ' ::
          ('<' :: '<' :: ((Shell.word delimiter).toList ++ '\n' ::
            ((ended p.document).toList ++ (delimiter.toList ++ ['\n'])))))) := by
    rw [command]
    simp [Lexeme.text, delimiter, Shell.wordChar]
  have hdelimiter : line? .plain none ('<' :: '<' :: ((Shell.word delimiter).toList ++ '\n' ::
      ((ended p.document).toList ++ (delimiter.toList ++ ['\n'])))) =
      some ([.document, .word true delimiter],
        (ended p.document).toList ++ (delimiter.toList ++ ['\n'])) := by
    have hquote : ((Shell.word delimiter).toList ++ '\n' ::
        ((ended p.document).toList ++ (delimiter.toList ++ ['\n']))).head? ≠ some '-' := by simp
    rw [line?_document hquote, line?_word]
    simp [line?, Draft.lexemes]
  have hcat : (Lexeme.word false "cat").Plain := plain_fixed (by decide)
  have houtput : Lexeme.output.Plain := trivial
  have hpath : (Lexeme.word true p.path).Plain := trivial
  rw [hchars, Lexeme.line?_text hcat, Lexeme.line?_text houtput, Lexeme.line?_text hpath,
    hdelimiter]
  rfl

/-- What is handed to the staged file is what a shell takes for the document behind the line. -/
theorem pipeline?_writing_eq (p : Plan) : pipeline? (p.command .writing) =
    (document? delimiter.toList ((ended p.document).toList ++ (delimiter.toList ++ ['\n']))).bind
      fun x => if x.2 = [] then
        some [{ words := ["cat"], output := some p.path, input := some (String.ofList x.1) }]
      else none := by
  have hsimples : simples? {} (p.lexemes .writing) =
      some [⟨["cat"], some p.path, some delimiter⟩] := rfl
  rw [pipeline?, line?_writing]
  simp only [Option.bind_eq_bind, Option.bind_some, hsimples, commands?]
  cases document? delimiter.toList ((ended p.document).toList ++ (delimiter.toList ++ ['\n'])) <;> rfl

theorem pipeline?_writing (hd : Stageable p.document) :
    pipeline? (p.command .writing) = some (p.pipeline .writing) := by
  obtain ⟨ls, -, htext, hls⟩ := id hd
  have hbody := document?_unlines (d := delimiter.toList) (by decide) hls
  rw [← htext] at hbody
  rw [pipeline?_writing_eq, ended_of_stageable hd, hbody]
  simp [pipeline]

theorem pipeline?_of_ne_writing (hn : IsName p.target.namespaceName) (ht : IsName p.target.table)
    {step : Step} (h : step ≠ .writing) : pipeline? (p.command step) = some (p.pipeline step) := by
  have hne : p.lexemes step ≠ [] := by cases step <;> simp [lexemes, nftLexemes]
  have hredirect : ∀ c ∈ p.pipeline step, c.output = none ∧ c.input = none := by
    cases step with
    | writing => exact absurd rfl h
    | _ => simp [pipeline]
  rw [pipeline?, command_eq h, Lexeme.line?_joined hne (plain_lexemes hn ht step)]
  simp only [Option.bind_eq_bind, Option.bind_some, simples?_lexemes h, commands?_map _ hredirect]
  rfl

/-- A shell takes each command of a plan as it is meant. -/
theorem pipeline?_command (hn : IsName p.target.namespaceName) (ht : IsName p.target.table)
    (hd : Stageable p.document) (step : Step) :
    pipeline? (p.command step) = some (p.pipeline step) := by
  by_cases h : step = .writing
  · rw [h]
    exact pipeline?_writing hd
  · exact pipeline?_of_ne_writing hn ht h

end Plan
end Deploy
end TwinWall
