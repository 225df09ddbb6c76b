import TwinWall.Shell.Word
import TwinWall.Proofs.Shell.Script

/-! Words and documents that are written for a shell are read back by it. A plain word may stand by itself,
every text may stand in quotes, and a document ends at its delimiter. -/
namespace TwinWall
namespace Shell

open Text

theorem line?_inQuotes (w s r : List Char) :
    line? .quotes (some (true, w)) (s.flatMap wordChar ++ '\x27' :: r) =
      line? .plain (some (true, w ++ s)) r := by
  induction s generalizing w with
  | nil => simp [line?]
  | cons c s ih =>
    by_cases hc : c = '\x27'
    · -- The quotes are closed for the quote itself, and opened again behind it.
      subst hc
      have ih := ih (w ++ ['\x27'])
      rw [List.append_assoc, List.singleton_append] at ih
      rw [← ih]
      simp [wordChar, line?, Draft.add, Draft.opened]
    · have ih := ih (w ++ [c])
      rw [List.append_assoc, List.singleton_append] at ih
      rw [← ih]
      simp [wordChar, hc, line?, Draft.add]

/-- Whatever the text is, its quoted form is one word of exactly that text. -/
theorem line?_word (s : String) (r : List Char) :
    line? .plain none ((word s).toList ++ r) = line? .plain (some (true, s.toList)) r := by
  have h := line?_inQuotes [] s.toList r
  rw [List.nil_append] at h
  rw [toList_word, List.cons_append, List.append_assoc, ← h]
  simp [line?, Draft.opened]

theorem line?_plain {c : Char} (hc : isPlain c = true) (w : Draft) (r : List Char) :
    line? .plain w (c :: r) = line? .plain (w.add false c) r := by
  have hne : ∀ d, isPlain d = false → c ≠ d := by
    rintro d hd rfl
    rw [hc] at hd
    cases hd
  rw [line?, if_neg (hne '\n' (by decide)), if_neg (hne ' ' (by decide)),
    if_neg (hne '\x27' (by decide)), if_neg (hne '\\' (by decide)), if_neg (hne '|' (by decide)),
    if_neg (hne '>' (by decide)), if_neg (hne '<' (by decide)), if_pos hc]

theorem line?_plainChars {s : List Char} (hs : ∀ c ∈ s, isPlain c = true) (q : Bool)
    (w r : List Char) : line? .plain (some (q, w)) (s ++ r) = line? .plain (some (q, w ++ s)) r := by
  induction s generalizing w with
  | nil => simp
  | cons c s ih =>
    have ih := ih (fun d hd => hs d (by simp [hd])) (w ++ [c])
    rw [List.append_assoc, List.singleton_append] at ih
    rw [List.cons_append, line?_plain (hs c (by simp)), ← ih]
    simp [Draft.add]

theorem line?_plainWord {w : String} (hw : IsPlain w) (r : List Char) :
    line? .plain none (w.toList ++ r) = line? .plain (some (false, w.toList)) r := by
  obtain ⟨c, s, hs⟩ := List.exists_cons_of_ne_nil hw.ne_nil
  have hplain : ∀ d ∈ s, isPlain d = true := fun d hd => hw.plain d (by simp [hs, hd])
  rw [hs, List.cons_append, line?_plain (hw.plain c (by simp [hs]))]
  exact line?_plainChars hplain false [c] r

theorem line?_document {r : List Char} (h : r.head? ≠ some '-') :
    line? .plain none ('<' :: '<' :: r) =
      (line? .plain none r).map fun p => (.document :: p.1, p.2) := by
  simp [line?, h]

namespace Lexeme

def text : Lexeme → String
  | word true s => Shell.word s
  | word false s => s
  | pipe => "|"
  | output => ">"
  | document => "<<"

/-- What stands outside of quotes means only itself. -/
def Plain : Lexeme → Prop
  | word false s => IsPlain s
  | _ => True

theorem line?_text {l : Lexeme} (h : l.Plain) (r : List Char) :
    line? .plain none (l.text.toList ++ ' ' :: r) =
      (line? .plain none r).map fun p => (l :: p.1, p.2) := by
  have hblank : line? .plain none (' ' :: r) = line? .plain none r := by
    cases hr : line? .plain none r <;> simp [line?, hr, Draft.lexemes]
  cases l with
  | word q s =>
    cases q with
    | true =>
      rw [text, line?_word]
      simp [line?, Draft.lexemes]
    | false =>
      rw [text, line?_plainWord h]
      simp [line?, Draft.lexemes]
  | pipe =>
    rw [← hblank]
    simp [text, line?, Draft.lexemes]
  | output =>
    rw [← hblank]
    simp [text, line?]
  | document =>
    rw [← hblank]
    simp [text, line?]

theorem line?_last {l : Lexeme} (h : l.Plain) : line? .plain none l.text.toList = some ([l], []) := by
  cases l with
  | word q s =>
    cases q with
    | true =>
      have hw := line?_word s []
      rw [List.append_nil] at hw
      rw [text, hw]
      simp [line?, Draft.lexemes]
    | false =>
      have hw := line?_plainWord h []
      rw [List.append_nil] at hw
      rw [text, hw]
      simp [line?, Draft.lexemes]
  | pipe => simp [text, line?, Draft.lexemes]
  | output => simp [text, line?, Draft.lexemes]
  | document => simp [text, line?, Draft.lexemes]

/-- Lexemes with blanks between them are read one by one. -/
theorem line?_joined {ls : List Lexeme} (hne : ls ≠ []) (h : ∀ l ∈ ls, l.Plain) :
    line? .plain none (" ".intercalate (ls.map text)).toList = some (ls, []) := by
  induction ls with
  | nil => exact absurd rfl hne
  | cons l ls ih =>
    have hl := h l (by simp)
    have ih := ih
    by_cases hls : ls = []
    · subst hls
      simpa using line?_last hl
    · have ih := ih hls fun m hm => h m (by simp [hm])
      rw [List.map_cons, toList_joined _ _ (by simpa using hls), line?_text hl, ih, Option.map_some]

end Lexeme

/-- Of lines that are not the delimiter every one is in the document. -/
theorem document?_unlines {d : List Char} {ls : List (List Char)} (hd : '\n' ∉ d)
    (h : ∀ l ∈ ls, '\n' ∉ l ∧ l ≠ d) :
    document? d (unlines ls ++ (d ++ ['\n'])) = some (unlines ls, []) := by
  have hend : (d ++ ['\n']).splitOn '\n' = [d, []] := by
    have hs := List.splitOn_append_cons_of_beq d [] (beq_self_eq_true '\n')
    rw [List.splitOn_eq_singleton hd] at hs
    simpa using hs
  have hlines : (unlines ls ++ (d ++ ['\n'])).splitOn '\n' = ls ++ [d, []] := by
    rw [splitOn_unlines (fun l hl => (h l hl).1), hend]
  have hne : ∀ l ∈ ls, decide (l ≠ d) = true := fun l hl => decide_eq_true (h l hl).2
  have htake : (ls ++ [d, []]).takeWhile (· ≠ d) = ls := by
    rw [List.takeWhile_append_of_pos hne]
    simp
  have hdrop : (ls ++ [d, []]).dropWhile (· ≠ d) = [d, []] := by
    rw [List.dropWhile_append_of_pos hne]
    simp
  rw [document?, hlines, hdrop, htake]
  simp

/-- What is taken for a document is made of lines of the text, none of them the delimiter. -/
theorem unlines_of_document? {d s : List Char} {x : List Char × List Char} (h : document? d s = some x) :
    x.1 = unlines ((s.splitOn '\n').takeWhile (· ≠ d)) ∧
      ∀ l ∈ (s.splitOn '\n').takeWhile (· ≠ d), '\n' ∉ l ∧ l ≠ d := by
  refine ⟨?_, fun l hl => ?_⟩
  · simp only [document?] at h
    split at h
    · cases h
    · cases h
      rfl
  · have hne : decide (l ≠ d) = true := List.all_eq_true.1 List.all_takeWhile l hl
    exact ⟨notMem_of_mem_splitOn ((List.takeWhile_sublist _).subset hl), of_decide_eq_true hne⟩

end Shell
end TwinWall
