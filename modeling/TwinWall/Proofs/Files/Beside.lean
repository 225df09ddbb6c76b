import TwinWall.Proofs.Files.Grown

/-! Trees of files that differ in one place only, where neither of them has a directory. A path that leads
anywhere else leads there in both. -/
namespace TwinWall
namespace Files

variable {f g : Files} {d p q : Place} {e : Entry} {n : String}

/-- Two trees with the same working directory that differ in one place at most. -/
structure Beside (f g : Files) (p : Place) : Prop where
  here : g.here = f.here
  find? : ∀ q, q ≠ p → g.find? q = f.find? q
  left : f.find? p ≠ some .directory
  right : g.find? p ≠ some .directory

theorem Beside.symm (h : Beside f g p) : Beside g f p :=
  ⟨h.here.symm, fun q hq => (h.find? q hq).symm, h.right, h.left⟩

theorem Beside.grown (h : Beside f g p) : Grown f g := by
  refine ⟨h.here, fun q hq => ?_⟩
  have hne : q ≠ p := by
    rintro rfl
    exact h.left hq
  rw [h.find? q hne, hq]

theorem Beside.locate_iff (h : Beside f g p) {path : Path} :
    g.locate path = .ok q ↔ f.locate path = .ok q :=
  ⟨h.symm.grown.locate, h.grown.locate⟩

/-- What a path leads to is the same, unless it leads to the place where the trees differ. -/
theorem Beside.readOctets (h : Beside f g p) {path : String} {o : List UInt8}
    (hne : ∀ parsed, Path.read path = .ok parsed → f.locate parsed ≠ .ok p)
    (ho : f.readOctets path = .ok o) : g.readOctets path = .ok o := by
  obtain ⟨parsed, hparsed, ho⟩ := Policy.bind_eq_ok.1 ho
  obtain ⟨q, hq, ho⟩ := Policy.bind_eq_ok.1 ho
  have hqp : q ≠ p := by
    rintro rfl
    exact hne parsed hparsed hq
  rw [Files.readOctets, hparsed]
  simp only [bind, Except.bind, h.locate_iff.2 hq, h.find? q hqp]
  exact ho

theorem Beside.readOctets_iff (h : Beside f g p) {path : String} {o : List UInt8}
    (hne : ∀ parsed, Path.read path = .ok parsed → f.locate parsed ≠ .ok p) :
    g.readOctets path = .ok o ↔ f.readOctets path = .ok o := by
  refine ⟨fun ho => h.symm.readOctets (fun parsed hparsed hlocate => ?_) ho, h.readOctets hne⟩
  exact hne parsed hparsed (h.locate_iff.1 hlocate)

section Put

/-- A directory is known by an entry that is there or below. -/
theorem exists_below (hd : f.find? d = some .directory) {r : Place} (hr : r <+: d) (hne : r ≠ []) :
    ∃ x ∈ f.entries, r.isPrefixOf x.1 = true := by
  simp only [List.isPrefixOf_iff_prefix]
  rcases find?_eq_directory.1 hd with hd | ⟨-, rfl | ⟨x, hx, hdx⟩⟩
  · obtain ⟨l, m, hentries, -⟩ := List.lookup_eq_some_iff.1 hd
    exact ⟨(d, .directory), by simp [hentries], hr⟩
  · exact absurd (List.prefix_nil.1 hr) hne
  · exact ⟨x, hx, hr.trans (List.isPrefixOf_iff_prefix.1 hdx)⟩

/-- Whatever leads to the new entry led to its directory before. -/
theorem any_put_below (hd : f.find? d = some .directory) {r : Place} (hr : r ≠ d ++ [n]) (hne : r ≠ []) :
    ((f.put (d ++ [n]) e).entries.any fun x => r.isPrefixOf x.1) =
      f.entries.any fun x => r.isPrefixOf x.1 := by
  rw [Bool.eq_iff_iff, List.any_eq_true, List.any_eq_true]
  refine ⟨fun ⟨x, hx, hbelow⟩ => ?_, exists_mem_put (P := fun q => r.isPrefixOf q = true)⟩
  rcases List.mem_cons.1 hx with rfl | hx
  · have hprefix := List.isPrefixOf_iff_prefix.1 hbelow
    exact exists_below hd ((List.prefix_concat_iff.1 hprefix).resolve_left hr) hne
  · exact ⟨x, List.mem_of_mem_filter hx, hbelow⟩

theorem find?_put_below (hd : f.find? d = some .directory) {r : Place} (hr : r ≠ d ++ [n]) :
    (f.put (d ++ [n]) e).find? r = f.find? r := by
  rw [Files.find?, Files.find?, lookup_put_of_ne hr]
  by_cases hne : r = []
  · simp [hne]
  · rw [any_put_below hd hr hne]

/-- A file that is put into a directory changes nothing beside it. -/
theorem beside_put {b : List UInt8} (hd : f.find? d = some .directory)
    (hp : f.find? (d ++ [n]) ≠ some .directory) : Beside f (f.put (d ++ [n]) (.file b)) (d ++ [n]) :=
  ⟨rfl, fun _ hq => find?_put_below hd hq, hp, by simp⟩

end Put

section Moved

variable {m : String}

theorem drop_put (f : Files) (p : Place) (e : Entry) : (f.put p e).drop p = f.drop p := by
  simp [put, drop]

/-- Where a file takes the place of another one in its directory, every directory stays. -/
theorem grown_moved (hp : f.find? (d ++ [m]) ≠ some .directory) (hq : f.find? (d ++ [n]) ≠ some .directory) :
    Grown f ((f.drop (d ++ [m])).put (d ++ [n]) e) := by
  refine ⟨rfl, fun r hr => ?_⟩
  have hrp : r ≠ d ++ [m] := by
    rintro rfl
    exact hp hr
  have hrq : r ≠ d ++ [n] := by
    rintro rfl
    exact hq hr
  have hlookup : ((f.drop (d ++ [m])).put (d ++ [n]) e).entries.lookup r = f.entries.lookup r := by
    rw [lookup_put_of_ne hrq]
    exact lookup_filter_ne hrp
  rw [find?_eq_directory, hlookup]
  refine (find?_eq_directory.1 hr).imp_right (And.imp_right (Or.imp_right fun ⟨x, hx, hbelow⟩ => ?_))
  by_cases hxp : x.1 = d ++ [m]
  · rw [hxp, List.isPrefixOf_iff_prefix, List.prefix_concat_iff] at hbelow
    have hparent := (hbelow.resolve_left hrp).trans (List.prefix_append d [n])
    exact ⟨(d ++ [n], e), List.mem_cons_self, List.isPrefixOf_iff_prefix.2 hparent⟩
  · have hkept : x ∈ (f.drop (d ++ [m])).entries := List.mem_filter.2 ⟨hx, by simpa using hxp⟩
    exact exists_mem_put (P := fun q => r.isPrefixOf q = true) ⟨x, hkept, hbelow⟩

/-- What a renaming that succeeded has done. -/
structure Renamed (f : Files) (source target : String) (g : Files) (p q : Place) (b : List UInt8) :
    Prop where
  source : ∃ parsed, Path.read source = .ok parsed ∧ f.locate parsed = .ok p
  target : ∃ parsed, Path.read target = .ok parsed ∧ f.locate parsed = .ok q ∧
    parsed.wantsDirectory = false
  file : f.find? p = some (.file b)
  no_directory : f.find? q ≠ some .directory
  eq : g = (f.drop p).put q (.file b)

theorem renamed_of_rename {source target : String} (h : f.rename source target = .ok g) :
    ∃ p q b, Renamed f source target g p q b := by
  obtain ⟨src, hsrc, h⟩ := Policy.bind_eq_ok.1 h
  obtain ⟨p, hp, h⟩ := Policy.bind_eq_ok.1 h
  obtain ⟨tgt, htgt, h⟩ := Policy.bind_eq_ok.1 h
  obtain ⟨q, hq, h⟩ := Policy.bind_eq_ok.1 h
  split at h
  · next b hfile =>
    split at h
    · cases h
    split at h
    · cases h
    · next hwants =>
      split at h
      · cases h
      · next hdirectory =>
        cases h
        exact ⟨p, q, b, ⟨src, hsrc, hp⟩, ⟨tgt, htgt, hq, by simpa using hwants⟩, hfile, hdirectory, rfl⟩
  · cases h

end Moved

end Files
end TwinWall
