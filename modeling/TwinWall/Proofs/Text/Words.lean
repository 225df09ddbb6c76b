import TwinWall.Text.Hex

/-! Words between blanks, and lines of words between line feeds. A text that is made of lines is cut into
the same lines again. -/
namespace TwinWall
namespace Text

/-- Items that are each read back are read back together. -/
theorem mapM_map_eq_some {α β : Type} {f : β → Option α} {g : α → β} {l : List α}
    (h : ∀ x ∈ l, f (g x) = some x) : (l.map g).mapM f = some l := by
  induction l with
  | nil => rfl
  | cons x l ih =>
    have hx := h x (by simp)
    have hl := ih fun y hy => h y (by simp [hy])
    simp [hx, hl]

theorem isSome_of_mapM {α β : Type} {f : α → Option β} {l : List α} {m : List β}
    (h : l.mapM f = some m) : ∀ x ∈ l, (f x).isSome := by
  induction l generalizing m with
  | nil => simp
  | cons x l ih =>
    rw [List.mapM_cons] at h
    obtain ⟨y, hy, h⟩ := Option.bind_eq_some_iff.1 h
    obtain ⟨ys, hys, -⟩ := Option.bind_eq_some_iff.1 h
    intro z hz
    rcases List.mem_cons.1 hz with rfl | hz
    · simp [hy]
    · exact ih hys z hz

def words (s : List Char) : List String := ((s.splitOn ' ').filter (· ≠ [])).map String.ofList

/-- The words of each line that has any. -/
def rows (s : List Char) : List (List String) := ((s.splitOn '\n').map words).filter (· ≠ [])

def unlines (ls : List (List Char)) : List Char := ls.flatMap (· ++ ['\n'])

@[simp] theorem words_nil : words [] = [] := by
  simp [words]

theorem words_append (a b : List Char) : words (a ++ ' ' :: b) = words a ++ words b := by
  simp [words, List.splitOn_append_cons_of_beq a b (beq_self_eq_true ' ')]

@[simp] theorem words_blank (s : List Char) : words (' ' :: s) = words s := by
  simpa using words_append [] s

/-- A text that stands between blanks as a whole. -/
structure IsWord (w : String) : Prop where
  ne_nil : w.toList ≠ []
  no_blank : ' ' ∉ w.toList
  no_feed : '\n' ∉ w.toList

theorem words_word {w : String} (h : IsWord w) : words w.toList = [w] := by
  simp [words, List.splitOn_eq_singleton h.no_blank, h.ne_nil]

/-- A character between or in the pieces of a text. -/
theorem mem_intercalate {s : String} {ls : List String} {c : Char}
    (h : c ∈ (s.intercalate ls).toList) : c ∈ s.toList ∨ ∃ l ∈ ls, c ∈ l.toList := by
  induction ls with
  | nil => simp at h
  | cons l ls ih =>
    cases ls with
    | nil => exact Or.inr ⟨l, by simp, by simpa using h⟩
    | cons m ls =>
      rw [String.intercalate_cons_of_ne_nil (by simp)] at h
      simp only [String.toList_append, List.mem_append] at h
      rcases h with (h | h) | h
      · exact Or.inr ⟨l, by simp, h⟩
      · exact Or.inl h
      · rcases ih h with h | ⟨k, hk, h⟩
        · exact Or.inl h
        · exact Or.inr ⟨k, List.mem_cons_of_mem _ hk, h⟩

theorem toList_joined (s : String) (ls : List String) (h : ls ≠ []) :
    (" ".intercalate (s :: ls)).toList = s.toList ++ ' ' :: (" ".intercalate ls).toList := by
  rw [String.intercalate_cons_of_ne_nil h]
  simp

/-- The words of texts with blanks between them are those of each text. -/
theorem words_joined (ls : List String) :
    words (" ".intercalate ls).toList = ls.flatMap fun s => words s.toList := by
  induction ls with
  | nil => simp
  | cons s ls ih =>
    by_cases h : ls = []
    · simp [h]
    · rw [toList_joined s ls h, words_append, ih, List.flatMap_cons]

theorem words_joined_words {ws : List String} (h : ∀ w ∈ ws, IsWord w) :
    words (" ".intercalate ws).toList = ws := by
  rw [words_joined]
  induction ws with
  | nil => rfl
  | cons w ws ih =>
    rw [List.flatMap_cons, words_word (h w (by simp)), ih fun v hv => h v (by simp [hv])]
    rfl

@[simp] theorem unlines_nil : unlines [] = [] := rfl

@[simp] theorem unlines_append (ls ms : List (List Char)) :
    unlines (ls ++ ms) = unlines ls ++ unlines ms := by
  simp [unlines]

theorem unlines_cons (l : List Char) (ls : List (List Char)) :
    unlines (l :: ls) = l ++ '\n' :: unlines ls := by
  simp [unlines]

/-- Cutting at line feeds gives the lines, and what stands behind the last line. -/
theorem splitOn_unlines {ls : List (List Char)} (h : ∀ l ∈ ls, '\n' ∉ l) (s : List Char) :
    (unlines ls ++ s).splitOn '\n' = ls ++ s.splitOn '\n' := by
  induction ls with
  | nil => rfl
  | cons l ls ih =>
    have hl := List.splitOn_eq_singleton (h l (by simp))
    have ih := ih fun m hm => h m (by simp [hm])
    rw [unlines_cons, List.append_assoc, List.cons_append,
      List.splitOn_append_cons_of_beq _ _ (beq_self_eq_true '\n'), hl, ih]
    rfl

/-- No piece between marks holds one. -/
theorem notMem_of_mem_splitOn {a : Char} {s l : List Char} (h : l ∈ s.splitOn a) : a ∉ l := by
  induction s generalizing l with
  | nil => simp_all
  | cons c s ih =>
    rw [List.splitOn_cons_eq_if_modifyHead] at h
    split at h
    · rcases List.mem_cons.1 h with rfl | h
      · simp
      · exact ih h
    · rename_i hc
      obtain ⟨m, ms, hs⟩ := List.exists_cons_of_ne_nil (List.splitOn_ne_nil a s)
      rw [hs, List.modifyHead_cons] at h
      rcases List.mem_cons.1 h with rfl | h
      · have hm : a ∉ m := ih (by simp [hs])
        have hc : a ≠ c := fun heq => hc (beq_iff_eq.2 heq.symm)
        simp [hc, hm]
      · exact ih (by simp [hs, h])

/-- What is not in a piece is a mark. -/
theorem mem_of_splitOn {a c : Char} {s : List Char} (h : c ∈ s) : c = a ∨ ∃ l ∈ s.splitOn a, c ∈ l := by
  induction s with
  | nil => cases h
  | cons d s ih =>
    rw [List.splitOn_cons_eq_if_modifyHead]
    split
    · rename_i hd
      rcases List.mem_cons.1 h with rfl | h
      · exact Or.inl (beq_iff_eq.1 hd)
      · refine (ih h).imp_right fun ⟨l, hl, hc⟩ => ⟨l, List.mem_cons_of_mem _ hl, hc⟩
    · obtain ⟨m, ms, hs⟩ := List.exists_cons_of_ne_nil (List.splitOn_ne_nil a s)
      rw [hs, List.modifyHead_cons]
      rcases List.mem_cons.1 h with rfl | h
      · exact Or.inr ⟨c :: m, by simp, by simp⟩
      · rcases ih h with hc | ⟨l, hl, hc⟩
        · exact Or.inl hc
        · rw [hs] at hl
          rcases List.mem_cons.1 hl with rfl | hl
          · exact Or.inr ⟨d :: l, by simp, List.mem_cons_of_mem _ hc⟩
          · exact Or.inr ⟨l, List.mem_cons_of_mem _ hl, hc⟩

theorem splitOn_eq_iff {a : Char} {s : List Char} {ls : List (List Char)} (hne : ls ≠ []) :
    s.splitOn a = ls ↔ s = [a].intercalate ls ∧ ∀ l ∈ ls, a ∉ l := by
  constructor
  · rintro rfl
    exact ⟨(List.intercalate_splitOn a).symm, fun l => notMem_of_mem_splitOn⟩
  · rintro ⟨rfl, hls⟩
    exact List.splitOn_intercalate a hls hne

theorem rows_unlines {ls : List (List Char)} (h : ∀ l ∈ ls, '\n' ∉ l) :
    rows (unlines ls) = (ls.map words).filter (· ≠ []) := by
  have hs := splitOn_unlines h []
  rw [List.append_nil] at hs
  simp [rows, hs]

/-- Characters that mean only themselves, wherever they stand. -/
def isPlain (c : Char) : Bool :=
  c.isAlphanum || c = '.' || c = '-' || c = '_' || c = ':' || c = '/'

/-- A word of such characters. -/
structure IsPlain (w : String) : Prop where
  ne_nil : w.toList ≠ []
  plain : ∀ c ∈ w.toList, isPlain c = true

theorem IsPlain.notMem {w : String} (h : IsPlain w) {c : Char} (hc : isPlain c = false) :
    c ∉ w.toList := by
  intro hm
  rw [h.plain c hm] at hc
  cases hc

theorem IsPlain.isWord {w : String} (h : IsPlain w) : IsWord w :=
  ⟨h.ne_nil, h.notMem (by decide), h.notMem (by decide)⟩

/-- What holds of each ASCII character is checked one by one. -/
theorem of_forall_ascii {P : Char → Prop} (hall : ∀ n < 128, P (Char.ofNat n)) {c : Char}
    (h : c.toNat < 128) : P c := by
  have hc := hall c.toNat h
  rwa [Char.ofNat_toNat] at hc

theorem toNat_lt_of_val_le {c d : Char} (h : c.val ≤ d.val) (hd : d.toNat < 128) : c.toNat < 128 :=
  Nat.lt_of_le_of_lt (UInt32.le_iff_toNat_le.1 h) hd

theorem toNat_lt_of_isDigit {c : Char} (h : c.isDigit = true) : c.toNat < 128 := by
  have hle := of_decide_eq_true (Bool.and_eq_true_iff.1 h).2
  exact toNat_lt_of_val_le (d := '9') hle (by decide)

theorem toNat_lt_of_isHex {c : Char} (h : isHex c = true) : c.toNat < 128 := by
  simp only [isHex, hexValue?] at h
  split at h
  · rename_i hdigit
    exact toNat_lt_of_isDigit hdigit
  · split at h
    · rename_i hlower
      exact toNat_lt_of_val_le (d := 'f') hlower.2 (by decide)
    · split at h
      · rename_i hupper
        exact toNat_lt_of_val_le (d := 'F') hupper.2 (by decide)
      · cases h

theorem toNat_lt_of_isAlphanum {c : Char} (h : c.isAlphanum = true) : c.toNat < 128 := by
  rcases Bool.or_eq_true_iff.1 h with halpha | hdigit
  · rcases Bool.or_eq_true_iff.1 halpha with hupper | hlower
    · have hle : 'A'.val ≤ c.val ∧ c.val ≤ 'Z'.val := of_decide_eq_true hupper
      exact toNat_lt_of_val_le hle.2 (by decide)
    · have hle : c.val ≤ 'z'.val := of_decide_eq_true (Bool.and_eq_true_iff.1 hlower).2
      exact toNat_lt_of_val_le hle (by decide)
  · exact toNat_lt_of_isDigit hdigit

theorem toNat_lt_of_isPlain {c : Char} (h : isPlain c = true) : c.toNat < 128 := by
  simp only [isPlain, Bool.or_eq_true, decide_eq_true_eq] at h
  rcases h with ((((h | rfl) | rfl) | rfl) | rfl) | rfl
  · exact toNat_lt_of_isAlphanum h
  all_goals decide

/-- A hexadecimal digit is plain in either case. -/
theorem isPlain_of_isHex {c : Char} (h : isHex c = true) :
    isPlain c = true ∧ isPlain c.toLower = true :=
  of_forall_ascii (P := fun c => isHex c = true → isPlain c = true ∧ isPlain c.toLower = true)
    (by decide) (toNat_lt_of_isHex h) h

end Text
end TwinWall
