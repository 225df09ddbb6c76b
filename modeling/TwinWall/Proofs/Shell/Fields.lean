import TwinWall.Proofs.Shell.Quoting

/-! The words of one command as a shell cuts them, with quotes removed: a backslash, single quotes and double
quotes all quote, and what is not quoted ends at a blank. Texts in which anything else would be interpreted have
no words here, and neither has a text with NUL. -/
namespace TwinWall
namespace Shell

open Text

/-- How the next character is quoted. -/
inductive Quoting where
  | none
  | escape
  | single
  | double
  | doubleEscape

/-- The blanks between words. -/
def isDivider (c : Char) : Bool := c = ' ' || c = '\t'

def isNul (c : Char) : Bool := c = '\x00'

/-- What keeps its meaning inside double quotes without a backslash in front. -/
def isExpansion (c : Char) : Bool := c = '$' || c = '\x60'

/-- What a backslash takes the meaning of inside double quotes. In front of anything else it stands for itself. -/
def isEscapable (c : Char) : Bool := isExpansion c || c = '"' || c = '\\'

namespace Draft

def fields : Draft → List String
  | none => []
  | some (_, s) => [String.ofList s]

end Draft

/-- The words from a place on, with the one that is not yet ended. A backslash and a line feed leave nothing. -/
def fieldsFrom? : Quoting → Draft → List Char → Option (List String)
  | .none, w, [] => some w.fields
  | .none, w, c :: r =>
    if isDivider c then (fieldsFrom? .none none r).map (w.fields ++ ·)
    else if c = '\\' then fieldsFrom? .escape w r
    else if c = '\x27' then fieldsFrom? .single w.opened r
    else if c = '"' then fieldsFrom? .double w.opened r
    else if isPlain c then fieldsFrom? .none (w.add false c) r
    else none
  | .escape, _, [] => none
  | .escape, w, c :: r =>
    if isNul c then none
    else if c = '\n' then fieldsFrom? .none w r
    else fieldsFrom? .none (w.add true c) r
  | .single, _, [] => none
  | .single, w, c :: r =>
    if isNul c then none
    else if c = '\x27' then fieldsFrom? .none w r
    else fieldsFrom? .single (w.add true c) r
  | .double, _, [] => none
  | .double, w, c :: r =>
    if isNul c || isExpansion c then none
    else if c = '"' then fieldsFrom? .none w r
    else if c = '\\' then fieldsFrom? .doubleEscape w r
    else fieldsFrom? .double (w.add true c) r
  | .doubleEscape, _, [] => none
  | .doubleEscape, w, c :: r =>
    if isNul c then none
    else if c = '\n' then fieldsFrom? .double w r
    else if isEscapable c then fieldsFrom? .double (w.add true c) r
    else fieldsFrom? .double ((w.add true '\\').add true c) r

def fields? (s : List Char) : Option (List String) := fieldsFrom? .none none s

section Word

variable {s : List Char} {c : Char}

theorem fieldsFrom?_divider (hc : isDivider c = true) (w : Draft) (r : List Char) :
    fieldsFrom? .none w (c :: r) = (fieldsFrom? .none none r).map (w.fields ++ ·) := by
  rw [fieldsFrom?, if_pos hc]

theorem fieldsFrom?_quote (w : Draft) (r : List Char) :
    fieldsFrom? .none w ('\x27' :: r) = fieldsFrom? .single w.opened r := rfl

theorem fieldsFrom?_single (hc : isNul c = false) (hne : c ≠ '\x27') (w : Draft) (r : List Char) :
    fieldsFrom? .single w (c :: r) = fieldsFrom? .single (w.add true c) r := by
  rw [fieldsFrom?, if_neg (by simp [hc]), if_neg hne]

/-- A quote leaves the quotes, is escaped outside of them, and enters them again. -/
theorem fieldsFrom?_wordChar (hc : isNul c = false) (v r : List Char) :
    fieldsFrom? .single (some (true, v)) (wordChar c ++ r) =
      fieldsFrom? .single (some (true, v ++ [c])) r := by
  rw [wordChar]
  split
  · next heq =>
    subst heq
    rfl
  · next hne => exact fieldsFrom?_single hc hne _ r

theorem fieldsFrom?_inQuotes (hs : ∀ c ∈ s, isNul c = false) (v r : List Char) :
    fieldsFrom? .single (some (true, v)) (s.flatMap wordChar ++ '\x27' :: r) =
      fieldsFrom? .none (some (true, v ++ s)) r := by
  -- on the text, with what has been read of the word so far
  induction s generalizing v with
  | nil =>
    rw [List.append_nil]
    rfl
  | cons c s ih =>
    obtain ⟨hc, hs⟩ := List.forall_mem_cons.1 hs
    rw [List.flatMap_cons, List.append_assoc, fieldsFrom?_wordChar hc, ih hs, List.append_assoc]
    rfl

/-- A NUL has no place in a word, and quotes do not help. -/
theorem fieldsFrom?_nul (hs : ∃ c ∈ s, isNul c = true) (v r : List Char) :
    fieldsFrom? .single (some (true, v)) (s.flatMap wordChar ++ r) = none := by
  induction s generalizing v with
  | nil =>
    obtain ⟨c, hc, -⟩ := hs
    cases hc
  | cons d s ih =>
    rw [List.flatMap_cons, List.append_assoc]
    cases hd : isNul d with
    | true =>
      have hnul : d = '\x00' := of_decide_eq_true hd
      subst hnul
      rfl
    | false =>
      obtain ⟨c, hc, hnul⟩ := hs
      have hmem : c ∈ s := by
        rcases List.mem_cons.1 hc with rfl | hc
        · rw [hd] at hnul
          cases hnul
        · exact hc
      rw [fieldsFrom?_wordChar hd]
      exact ih ⟨c, hmem, hnul⟩ _

theorem forall_isNul_eq_false (h : '\x00' ∉ s) : ∀ c ∈ s, isNul c = false := by
  intro c hc
  refine decide_eq_false ?_
  rintro rfl
  exact h hc

/-- A text in quotes is one word in front of a blank, whatever stands behind the blank. -/
theorem fields?_word {t : String} (ht : '\x00' ∉ t.toList) (hc : isDivider c = true) (r : List Char) :
    fields? ((word t).toList ++ c :: r) = (fields? r).map (t :: ·) := by
  have hquoted := fieldsFrom?_inQuotes (forall_isNul_eq_false ht) [] (c :: r)
  rw [fields?, toList_word, List.cons_append, List.append_assoc, List.singleton_append, fieldsFrom?_quote,
    Draft.opened, hquoted, fieldsFrom?_divider hc]
  simp [Draft.fields, fields?]

theorem fields?_word_nul {t : String} (ht : '\x00' ∈ t.toList) (r : List Char) :
    fields? ((word t).toList ++ r) = none := by
  have hnone := fieldsFrom?_nul ⟨_, ht, rfl⟩ [] ('\x27' :: r)
  rw [fields?, toList_word, List.cons_append, List.append_assoc, List.singleton_append, fieldsFrom?_quote]
  exact hnone

end Word

theorem fields?_word_single {s : String} {c : Char} (hs : '\x00' ∉ s.toList) (hc : isDivider c = true) :
    fields? ((word s).toList ++ [c]) = some [s] := by
  rw [fields?_word hs hc]
  rfl

theorem word_injective : Function.Injective word := by
  intro s t h
  have hs := line?_word s []
  have ht := line?_word t []
  rw [h, ht] at hs
  simpa [line?, Draft.lexemes, eq_comm] using hs

/-- Quoting is exact. In front of a blank the quoted form of a text is one word, which is the text; only a NUL
stands in the way. What follows the blank is read on its own, and different texts have different quoted forms. -/
theorem word_settled :
    (∀ (s : String) (c : Char), isDivider c = true →
      (fields? ((word s).toList ++ [c]) = some [s] ↔ '\x00' ∉ s.toList)) ∧
    (∀ (s : String) (c : Char), isDivider c = true → '\x00' ∉ s.toList →
      ∀ r, fields? ((word s).toList ++ c :: r) = (fields? r).map (s :: ·)) ∧
    Function.Injective word := by
  refine ⟨fun s c hc => ⟨fun hread hnul => ?_, fun hs => fields?_word_single hs hc⟩,
    fun s c hc hs r => fields?_word hs hc r, word_injective⟩
  rw [fields?_word_nul hnul] at hread
  cases hread

/-- Quotes at both ends and in a row, a line feed, a backslash and a dollar sign. -/
def oddText : String := "'it''s\n\\$HOME\" \\'"

theorem word_settled_odd : isDivider '\t' = true ∧ '\x00' ∉ oddText.toList ∧
    fields? ((word oddText).toList ++ ['\t']) = some [oddText] ∧
    fields? ((word oddText).toList ++ '\t' :: (word "").toList) = some [oddText, ""] := by
  have hdivider : isDivider '\t' = true := rfl
  have hnul : '\x00' ∉ oddText.toList := by decide
  have hrest : fields? (word "").toList = some [""] := rfl
  refine ⟨hdivider, hnul, (word_settled.1 _ _ hdivider).2 hnul, ?_⟩
  rw [word_settled.2.1 _ _ hdivider hnul, hrest]
  rfl

end Shell
end TwinWall
