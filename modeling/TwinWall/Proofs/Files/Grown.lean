import TwinWall.Files
import TwinWall.Proofs.Policy.Sound

/-! Trees of files that grow. Where a directory was there is one later, so a path leads to the same place, and
directories that were made need not be made again. -/
namespace TwinWall
namespace Files

variable {f g h : Files} {p q : Place} {e : Entry}

/-- Every directory of one tree is in another with the same working directory. -/
structure Grown (f g : Files) : Prop where
  here : g.here = f.here
  directory : ∀ q, f.find? q = some .directory → g.find? q = some .directory

theorem Grown.refl (f : Files) : Grown f f := ⟨rfl, fun _ => id⟩

theorem Grown.trans (hfg : Grown f g) (hgh : Grown g h) : Grown f h :=
  ⟨hgh.here.trans hfg.here, fun q hq => hgh.directory q (hfg.directory q hq)⟩

theorem lookup_filter_ne {l : List (Place × Entry)} (hne : q ≠ p) :
    (l.filter fun x => x.1 != p).lookup q = l.lookup q := by
  induction l with
  | nil => rfl
  | cons x l ih =>
    obtain ⟨r, y⟩ := x
    by_cases hr : r = p
    · have hq : (q == r) = false := by simpa [hr] using hne
      simpa [List.lookup_cons, hr, hr ▸ hq] using ih
    · simp [List.lookup_cons, hr, ih]

theorem lookup_put_of_ne (hne : q ≠ p) : (f.put p e).entries.lookup q = f.entries.lookup q := by
  have hq : (q == p) = false := by simpa using hne
  rw [put, List.lookup_cons, hq]
  exact lookup_filter_ne hne

/-- What is below the place of an entry is below it later too. -/
theorem exists_mem_put {P : Place → Prop} (h : ∃ x ∈ f.entries, P x.1) :
    ∃ x ∈ (f.put p e).entries, P x.1 := by
  obtain ⟨x, hx, hP⟩ := h
  by_cases hxp : x.1 = p
  · exact ⟨(p, e), List.mem_cons_self, hxp ▸ hP⟩
  · exact ⟨x, List.mem_cons_of_mem _ (List.mem_filter.2 ⟨hx, by simpa using hxp⟩), hP⟩

theorem find?_eq_directory : f.find? q = some .directory ↔ f.entries.lookup q = some .directory ∨
    f.entries.lookup q = none ∧ (q = [] ∨ ∃ x ∈ f.entries, q.isPrefixOf x.1 = true) := by
  rw [find?]
  cases f.entries.lookup q <;> simp [Decidable.or_iff_not_imp_left]

/-- Another entry leaves a directory what it is, also if nothing but an entry below it tells of it. -/
theorem find?_put_of_directory (hq : f.find? q = some .directory) (hne : q ≠ p) :
    (f.put p e).find? q = some .directory := by
  rw [find?_eq_directory, lookup_put_of_ne hne]
  rcases find?_eq_directory.1 hq with hq | ⟨hnone, hroot | hbelow⟩
  · exact .inl hq
  · exact .inr ⟨hnone, .inl hroot⟩
  · exact .inr ⟨hnone, .inr (exists_mem_put (P := fun r => q.isPrefixOf r = true) hbelow)⟩

theorem grown_put_file (hp : f.find? p ≠ some .directory) : Grown f (f.put p e) :=
  ⟨rfl, fun _ hq => find?_put_of_directory hq fun h => hp (h ▸ hq)⟩

theorem grown_put_directory : Grown f (f.put p .directory) := by
  refine ⟨rfl, fun q hq => ?_⟩
  by_cases hne : q = p
  · rw [hne, find?_put_self]
  · exact find?_put_of_directory hq hne

theorem Grown.enter (hfg : Grown f g) {name : String} (h : f.enter p name = .ok q) :
    g.enter p name = .ok q := by
  cases hp : f.find? p with
  | none => simp [Files.enter, hp] at h
  | some e =>
    cases e with
    | file b => simp [Files.enter, hp] at h
    | directory =>
      rw [Files.enter, hp] at h
      rw [Files.enter, hfg.directory p hp]
      exact h

/-- A path leads to where it led before. -/
theorem Grown.locate (hfg : Grown f g) {path : Path} (h : f.locate path = .ok q) :
    g.locate path = .ok q := by
  have hnames : ∀ (names : List String) (p : Place), names.foldlM f.enter p = .ok q →
      names.foldlM g.enter p = .ok q := by
    intro names
    induction names with
    | nil => exact fun p h => h
    | cons name names ih =>
      intro p h
      rw [List.foldlM_cons] at h ⊢
      cases hname : f.enter p name with
      | error e =>
        rw [hname] at h
        cases h
      | ok r =>
        rw [hname] at h
        rw [hfg.enter hname]
        exact ih r h
  rw [Files.locate, hfg.here]
  exact hnames _ _ h

/-- Makes the directory of the first names of a path, if it is missing. -/
def makeOne (path : Path) (start : Place) (f : Files) (n : Nat) : Except FileError Files :=
  match f.find? (start ++ path.names.take n) with
  | none => .ok (f.put (start ++ path.names.take n) .directory)
  | some .directory => .ok f
  | some (.file _) => .error (if n = path.names.length then .taken else .notDirectory)

/-- Where a path starts. -/
def startOf (f : Files) (path : Path) : Place := if path.absolute then [] else f.here

theorem makeDirectories_eq (f : Files) (path : String) : f.makeDirectories path = (do
    let p ← Path.read path
    (List.range' 1 p.names.length).foldlM (makeOne p (f.startOf p)) f) := rfl

section Directories

variable {path : Path} {start : Place}

theorem grown_makeOne {n : Nat} (h : makeOne path start f n = .ok g) :
    Grown f g ∧ g.find? (start ++ path.names.take n) = some .directory := by
  rw [makeOne] at h
  split at h
  · cases h
    exact ⟨grown_put_directory, find?_put_self ..⟩
  · next hdirectory =>
    cases h
    exact ⟨.refl _, hdirectory⟩
  · cases h

theorem grown_makeAll {ns : List Nat} (h : ns.foldlM (makeOne path start) f = .ok g) :
    Grown f g ∧ ∀ n ∈ ns, g.find? (start ++ path.names.take n) = some .directory := by
  induction ns generalizing f with
  | nil =>
    cases h
    exact ⟨.refl _, nofun⟩
  | cons n ns ih =>
    rw [List.foldlM_cons] at h
    cases hone : makeOne path start f n with
    | error e =>
      rw [hone] at h
      cases h
    | ok f' =>
      rw [hone] at h
      obtain ⟨hgrown, hmade⟩ := grown_makeOne hone
      obtain ⟨hrest, hall⟩ := ih h
      refine ⟨hgrown.trans hrest, ?_⟩
      simp only [List.forall_mem_cons]
      exact ⟨hrest.directory _ hmade, hall⟩

theorem makeAll_of_directories {ns : List Nat}
    (h : ∀ n ∈ ns, f.find? (start ++ path.names.take n) = some .directory) :
    ns.foldlM (makeOne path start) f = .ok f := by
  induction ns with
  | nil => rfl
  | cons n ns ih =>
    obtain ⟨hn, hns⟩ := List.forall_mem_cons.1 h
    have hone : makeOne path start f n = .ok f := by rw [makeOne, hn]
    rw [List.foldlM_cons, hone]
    exact ih hns

end Directories

/-- All directories on the way to a path are there, the last one too. -/
def Made (f : Files) (path : String) : Prop :=
  ∃ p, Path.read path = .ok p ∧
    ∀ n ∈ List.range' 1 p.names.length, f.find? (f.startOf p ++ p.names.take n) = some .directory

theorem Grown.startOf (hfg : Grown f g) (path : Path) : g.startOf path = f.startOf path := by
  rw [Files.startOf, Files.startOf, hfg.here]

theorem Made.grown {path : String} (h : Made f path) (hfg : Grown f g) : Made g path := by
  obtain ⟨p, hp, hall⟩ := h
  refine ⟨p, hp, fun n hn => ?_⟩
  rw [hfg.startOf]
  exact hfg.directory _ (hall n hn)

theorem made_of_makeDirectories {path : String} (h : f.makeDirectories path = .ok g) :
    Grown f g ∧ Made g path := by
  rw [makeDirectories_eq] at h
  cases hp : Path.read path with
  | error e =>
    rw [hp] at h
    cases h
  | ok p =>
    rw [hp] at h
    obtain ⟨hgrown, hall⟩ := grown_makeAll h
    refine ⟨hgrown, p, hp, fun n hn => ?_⟩
    rw [hgrown.startOf]
    exact hall n hn

/-- Directories that are there are left alone. -/
theorem Made.makeDirectories {path : String} (h : Made f path) : f.makeDirectories path = .ok f := by
  obtain ⟨p, hp, hall⟩ := h
  rw [makeDirectories_eq, hp]
  exact makeAll_of_directories hall

/-- What can be written is no directory, and its path asks for none. -/
theorem writable_eq_ok {path : String} {b : List UInt8} (h : f.writable path = .ok (p, b)) :
    ∃ parsed, Path.read path = .ok parsed ∧ f.locate parsed = .ok p ∧ parsed.wantsDirectory = false ∧
      f.find? p ≠ some .directory := by
  obtain ⟨parsed, hparsed, h⟩ := Policy.bind_eq_ok.1 h
  obtain ⟨q, hq, h⟩ := Policy.bind_eq_ok.1 h
  split at h
  · cases h
  · next hwants =>
    have hplace : q = p ∧ f.find? p ≠ some .directory := by
      split at h
      · next hnone =>
        cases h
        exact ⟨rfl, by simp [hnone]⟩
      · next hsome =>
        cases h
        exact ⟨rfl, by simp [hsome]⟩
      · cases h
    obtain ⟨rfl, hdirectory⟩ := hplace
    exact ⟨parsed, hparsed, hq, by simpa using hwants, hdirectory⟩

/-- A file that can be written holds what is put there, and can be written again. -/
theorem writable_put {path : String} {b : List UInt8} (h : f.writable path = .ok (p, b))
    (c : List UInt8) : f.find? p ≠ some .directory ∧ (f.put p (.file c)).writable path = .ok (p, c) ∧
      (f.put p (.file c)).readOctets path = .ok c := by
  obtain ⟨parsed, hparsed, hp, hwants, hdirectory⟩ := writable_eq_ok h
  have hlocate := (grown_put_file (e := .file c) hdirectory).locate hp
  refine ⟨hdirectory, ?_, ?_⟩
  · simp [writable, hparsed, hlocate, hwants, bind, Except.bind]
  · simp [readOctets, hparsed, hlocate, hwants, bind, Except.bind]

@[simp] theorem put_put (f : Files) (p : Place) (e e' : Entry) : (f.put p e).put p e' = f.put p e' := by
  simp [put]

theorem exists_write {path : String} {b : List UInt8} (h : f.write path b = .ok g) (c : List UInt8) :
    ∃ g', f.write path c = .ok g' := by
  obtain ⟨⟨p, o⟩, hwritable, -⟩ := Policy.bind_eq_ok.1 h
  exact ⟨_, Policy.bind_eq_ok.2 ⟨(p, o), hwritable, rfl⟩⟩

/-- A file that is written twice holds what was written last. -/
theorem write_write {path : String} {b : List UInt8} (h : f.write path b = .ok g) (c : List UInt8) :
    g.write path c = f.write path c := by
  obtain ⟨⟨p, o⟩, hwritable, h⟩ := Policy.bind_eq_ok.1 h
  cases h
  obtain ⟨-, hagain, -⟩ := writable_put hwritable b
  rw [write, write, hwritable, hagain]
  simp [bind, Except.bind]

end Files
end TwinWall
