import TwinWall.Settings
import TwinWall.Proofs.Files.Beside
import TwinWall.Proofs.Text.Words

/-! Where settings are drafted: in the directory of their file and under another name, so that no path with a
name leads to the same place as that of its draft. -/
namespace TwinWall
namespace Settings

/-- The ending that a draft gets. -/
def draftEnding : List Char := ".json.tmp".toList

def draftName (name : List Char) : List Char := nameStem name ++ draftEnding

section Names

variable {name : List Char}

/-- The stem is the whole name, or what stands in front of its last point. -/
theorem nameStem_cases (name : List Char) :
    nameStem name = name ∨ ∃ t, name = nameStem name ++ '.' :: t ∧ '.' ∉ t := by
  have hsplit := List.takeWhile_append_dropWhile (p := fun c => decide (c ≠ '.')) (l := name.reverse)
  rw [nameStem]
  split
  · next r hback =>
    split
    · exact .inl rfl
    · refine .inr ⟨(name.reverse.takeWhile fun c => decide (c ≠ '.')).reverse, ?_, fun hmem => ?_⟩
      · rw [hback] at hsplit
        have hname := congrArg List.reverse hsplit
        simpa using hname.symm
      · have hpoint := List.all_eq_true.1 List.all_takeWhile _ (List.mem_reverse.1 hmem)
        exact absurd hpoint (by decide)
  · exact .inl rfl

theorem draftName_ne (name : List Char) : draftName name ≠ name := by
  intro heq
  rcases nameStem_cases name with hstem | ⟨t, hname, ht⟩
  · -- the draft has nine characters more
    have hlen := congrArg List.length heq
    rw [draftName, hstem, List.length_append] at hlen
    have hending : draftEnding.length = 9 := rfl
    omega
  · -- the ending of the draft has two points, and that of the name has one
    rw [draftName] at heq
    have hending : draftEnding = '.' :: t := List.append_cancel_left (heq.trans hname)
    have htail : t = "json.tmp".toList := (List.cons.inj hending).2.symm
    exact ht (by rw [htail]; decide)

theorem mem_nameStem {c : Char} (h : c ∈ nameStem name) : c ∈ name := by
  rcases nameStem_cases name with hstem | ⟨t, hname, -⟩
  · rwa [hstem] at h
  · rw [hname]
    exact List.mem_append_left _ h

theorem length_draftName (name : List Char) : 9 ≤ (draftName name).length := by
  rw [draftName, List.length_append]
  exact Nat.le_add_left 9 _

theorem slash_notMem_draftName (h : '/' ∉ name) : '/' ∉ draftName name := by
  rw [draftName, List.mem_append, not_or]
  exact ⟨fun hmem => h (mem_nameStem hmem), by decide⟩

end Names

/-- A path whose last part is a name, but for parts behind it that say nothing. -/
structure Named (path : String) (above : List (List Char)) (name : List Char)
    (idle : List (List Char)) : Prop where
  parts : path.toList.splitOn '/' = above ++ name :: idle
  behind : ∀ p ∈ idle, isIdle p = true
  known : isIdle name = false
  not_parent : name ≠ ['.', '.']

def HasName (path : String) : Prop := ∃ above name idle, Named path above name idle

section Paths

variable {path : String} {above idle : List (List Char)} {name : List Char}

theorem withoutIdle_append (h : ∀ p ∈ idle, isIdle p = true) (hname : isIdle name = false)
    (rest : List (List Char)) : withoutIdle (idle ++ name :: rest) = name :: rest := by
  induction idle with
  | nil =>
    cases rest with
    | nil => rfl
    | cons q rest => simp [withoutIdle, hname]
  | cons p idle ih =>
    obtain ⟨hp, hidle⟩ := List.forall_mem_cons.1 h
    obtain ⟨q, r, hqr⟩ : ∃ q r, idle ++ name :: rest = q :: r := by
      cases idle <;> exact ⟨_, _, rfl⟩
    rw [List.cons_append, hqr, withoutIdle, if_pos hp, ← hqr, ih hidle]

theorem intercalate_append (l : List (List Char)) (s t : List Char) :
    ['/'].intercalate (l ++ [s]) ++ t = ['/'].intercalate (l ++ [s ++ t]) := by
  induction l with
  | nil => simp
  | cons p l ih =>
    rw [List.cons_append, List.cons_append, List.intercalate_cons_of_ne_nil (by simp),
      List.intercalate_cons_of_ne_nil (by simp), ← ih, List.append_assoc _ _ t]

theorem toList_draftPath (h : Named path above name idle) :
    (draftPath path).toList = ['/'].intercalate (above ++ [draftName name]) := by
  have hreverse : (path.toList.splitOn '/').reverse = idle.reverse ++ name :: above.reverse := by
    simp [h.parts]
  have hidle : ∀ p ∈ idle.reverse, isIdle p = true := fun p hp => h.behind p (List.mem_reverse.1 hp)
  have hname : ¬ (isIdle name || name = ['.', '.']) = true := by
    simp [h.known, h.not_parent]
  rw [draftPath, hreverse, withoutIdle_append hidle h.known]
  simp only [if_neg hname, List.reverse_cons, List.reverse_reverse, String.toList_append, String.toList_ofList]
  exact intercalate_append above (nameStem name) draftEnding

theorem slash_notMem_part (h : Named path above name idle) {p : List Char}
    (hp : p ∈ above ++ name :: idle) : '/' ∉ p :=
  Text.notMem_of_mem_splitOn (s := path.toList) (h.parts ▸ hp)

/-- The draft of a path has the parts in front of the name, and another name behind them. -/
theorem parts_draftPath (h : Named path above name idle) :
    (draftPath path).toList.splitOn '/' = above ++ [draftName name] := by
  rw [toList_draftPath h]
  refine List.splitOn_intercalate '/' (fun p hp => ?_) (by simp)
  rcases List.mem_append.1 hp with hp | hp
  · exact slash_notMem_part h (List.mem_append_left _ hp)
  · rw [List.mem_singleton.1 hp]
    exact slash_notMem_draftName (slash_notMem_part h (List.mem_append_right _ List.mem_cons_self))

/-- A draft is never written over what it is to take the place of. -/
theorem draftPath_ne (h : HasName path) : draftPath path ≠ path := by
  obtain ⟨above, name, idle, h⟩ := h
  intro heq
  have hparts := parts_draftPath h
  rw [heq, h.parts, List.append_cancel_left_eq, List.cons.injEq] at hparts
  exact draftName_ne name hparts.1.symm

end Paths

section Places

open Files

/-- A path that is not empty starts at the root just if nothing stands in front of its first slash. -/
theorem head?_splitOn_eq_nil {s : List Char} (hs : s ≠ []) :
    (s.splitOn '/').head? = some [] ↔ s.head? = some '/' := by
  obtain ⟨c, s, rfl⟩ := List.exists_cons_of_ne_nil hs
  rw [List.splitOn_cons_eq_if_modifyHead]
  split
  · next hc => simpa using hc
  · next hc =>
    obtain ⟨l, ls, hl⟩ := List.exists_cons_of_ne_nil (List.splitOn_ne_nil '/' s)
    rw [hl]
    simpa using hc

/-- The names of some parts of a path. -/
def namesOfParts (l : List (List Char)) : List String := (l.filter (!·.isEmpty)).map String.ofList

/-- The directory that the parts in front of a name lead to. -/
def directoryOf (f : Files) (above : List (List Char)) : Except FileError Place :=
  (namesOfParts above).foldlM f.enter (if above.head? = some [] then [] else f.here)

variable {f : Files} {path : String} {above idle : List (List Char)} {name : List Char} {parsed : Path}

theorem namesOfParts_append (l m : List (List Char)) :
    namesOfParts (l ++ m) = namesOfParts l ++ namesOfParts m := by
  simp [namesOfParts]

theorem namesOfParts_cons {p : List Char} (h : p ≠ []) (l : List (List Char)) :
    namesOfParts (p :: l) = String.ofList p :: namesOfParts l := by
  simp [namesOfParts, h]

theorem of_read (h : Path.read path = .ok parsed) : path.toList ≠ [] ∧
    parsed.absolute = (path.toList.head? == some '/') ∧
    parsed.names = namesOfParts (path.toList.splitOn '/') := by
  rw [Path.read] at h
  split at h
  · cases h
  split at h
  · cases h
  · next hne =>
    split at h
    · cases h
    · cases h
      exact ⟨by simpa using hne, rfl, rfl⟩

/-- A path leads through the parts in front of a name, then to the name and to what stands behind it. -/
theorem locate_of_parts {tail : List (List Char)} (hname : name ≠ [])
    (hparts : path.toList.splitOn '/' = above ++ name :: tail) (hread : Path.read path = .ok parsed) :
    f.locate parsed = (do
      let d ← directoryOf f above
      let p ← f.enter d (String.ofList name)
      (namesOfParts tail).foldlM f.enter p) := by
  obtain ⟨hne, habsolute, hnames⟩ := of_read hread
  have hhead : path.toList.head? = some '/' ↔ above.head? = some [] := by
    rw [← head?_splitOn_eq_nil hne, hparts]
    cases above with
    | nil => simp [hname]
    | cons a above => simp
  have hstart : (if parsed.absolute then [] else f.here) =
      if above.head? = some [] then [] else f.here := by
    simp [habsolute, hhead]
  rw [locate, hstart, hnames, hparts, namesOfParts_append, namesOfParts_cons hname, List.foldlM_append,
    directoryOf]
  rfl

theorem directory_of_enter {d p : Place} {n : String} (h : f.enter d n = .ok p) :
    f.find? d = some .directory := by
  rw [enter] at h
  split at h
  · cases h
  · cases h
  · assumption

/-- A name is entered in a directory. -/
theorem of_enter {d p : Place} {n : String} (hpoint : n ≠ ".") (hparent : n ≠ "..")
    (h : f.enter d n = .ok p) : f.find? d = some .directory ∧ p = d ++ [n] := by
  have hd := directory_of_enter h
  rw [enter, hd] at h
  simp only [if_neg hpoint, if_neg hparent] at h
  split at h
  · cases h
  · cases h
    exact ⟨hd, rfl⟩

/-- Points lead nowhere else. -/
theorem eq_of_points {l : List String} {p q : Place} (hl : ∀ n ∈ l, n = ".")
    (h : l.foldlM f.enter p = .ok q) : q = p := by
  induction l generalizing p with
  | nil =>
    cases h
    rfl
  | cons n l ih =>
    obtain ⟨hn, hl⟩ := List.forall_mem_cons.1 hl
    rw [List.foldlM_cons] at h
    obtain ⟨p', hp', h⟩ := Policy.bind_eq_ok.1 h
    have hsame : p' = p := by
      rw [hn, enter] at hp'
      split at hp' <;> cases hp'
      rfl
    rw [ih hl h, hsame]

theorem points_of_idle (h : ∀ p ∈ idle, isIdle p = true) : ∀ n ∈ namesOfParts idle, n = "." := by
  intro n hn
  obtain ⟨p, hp, rfl⟩ := List.mem_map.1 hn
  obtain ⟨hp, hne⟩ := List.mem_filter.1 hp
  have hidle := h p hp
  simp only [isIdle, Bool.or_eq_true, decide_eq_true_eq] at hidle
  rcases hidle with rfl | rfl
  · cases hne
  · rfl

theorem ofList_ne {s : List Char} {t : String} (h : s ≠ t.toList) : String.ofList s ≠ t := by
  rintro rfl
  exact h String.toList_ofList.symm

/-- The draft is a name in the directory of its file. -/
theorem place_of_draft (h : Named path above name idle) {p : Place}
    (hread : Path.read (draftPath path) = .ok parsed) (hp : f.locate parsed = .ok p) :
    ∃ d, directoryOf f above = .ok d ∧ f.find? d = some .directory ∧
      p = d ++ [String.ofList (draftName name)] := by
  have hlen := length_draftName name
  have hne : ∀ t : List Char, t.length < 9 → draftName name ≠ t := by
    rintro t ht rfl
    omega
  rw [locate_of_parts (hne [] (by decide)) (parts_draftPath h) hread] at hp
  obtain ⟨d, hd, hp⟩ := Policy.bind_eq_ok.1 hp
  obtain ⟨p', hp', hp⟩ := Policy.bind_eq_ok.1 hp
  cases hp
  obtain ⟨hdirectory, heq⟩ := of_enter (ofList_ne (hne _ (by decide))) (ofList_ne (hne _ (by decide))) hp'
  exact ⟨d, hd, hdirectory, heq⟩

/-- And so is the file, under its own name. -/
theorem place_of_path (h : Named path above name idle) {q : Place} (hread : Path.read path = .ok parsed)
    (hq : f.locate parsed = .ok q) : ∃ d, directoryOf f above = .ok d ∧ q = d ++ [String.ofList name] := by
  have hknown := h.known
  simp only [isIdle, Bool.or_eq_false_iff, decide_eq_false_iff_not] at hknown
  rw [locate_of_parts hknown.1 h.parts hread] at hq
  obtain ⟨d, hd, hq⟩ := Policy.bind_eq_ok.1 hq
  obtain ⟨p, hp, hq⟩ := Policy.bind_eq_ok.1 hq
  obtain ⟨-, heq⟩ := of_enter (ofList_ne hknown.2) (ofList_ne h.not_parent) hp
  exact ⟨d, hd, (eq_of_points (points_of_idle h.behind) hq).trans heq⟩

/-- A path to something that is no directory ends with the name. -/
theorem names_of_path (h : Named path above name idle) {q : Place} (hread : Path.read path = .ok parsed)
    (hq : f.locate parsed = .ok q) (hno : f.find? q ≠ some .directory) :
    parsed.names = namesOfParts above ++ [String.ofList name] := by
  have hknown := h.known
  simp only [isIdle, Bool.or_eq_false_iff, decide_eq_false_iff_not] at hknown
  rw [locate_of_parts hknown.1 h.parts hread] at hq
  obtain ⟨d, -, hq⟩ := Policy.bind_eq_ok.1 hq
  obtain ⟨p, -, hq⟩ := Policy.bind_eq_ok.1 hq
  have hpoints := points_of_idle h.behind
  obtain rfl := eq_of_points hpoints hq
  rw [(of_read hread).2.2, h.parts, namesOfParts_append, namesOfParts_cons hknown.1]
  cases hrest : namesOfParts idle with
  | nil => rfl
  | cons n l =>
    -- a point behind the name is entered in a directory only
    rw [hrest, List.foldlM_cons] at hq
    obtain ⟨p', hp', -⟩ := Policy.bind_eq_ok.1 hq
    exact absurd (directory_of_enter hp') hno

/-- No tree has a file and its draft in one place. -/
theorem locate_ne_of_draft (h : HasName path) {draft parsed : Path} {p : Place}
    (hdraft : Path.read (draftPath path) = .ok draft) (hp : f.locate draft = .ok p)
    (hread : Path.read path = .ok parsed) : f.locate parsed ≠ .ok p := by
  obtain ⟨above, name, idle, h⟩ := h
  intro hq
  obtain ⟨d, hd, -, rfl⟩ := place_of_draft h hdraft hp
  obtain ⟨d', hd', heq⟩ := place_of_path h hread hq
  obtain rfl : d = d' := Except.ok.inj (hd.symm.trans hd')
  have hname := List.append_cancel_left heq
  rw [List.cons.injEq, String.ofList_inj] at hname
  exact draftName_ne name hname.1

end Places

end Settings
end TwinWall
