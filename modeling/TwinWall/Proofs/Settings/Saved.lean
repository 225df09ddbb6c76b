import TwinWall.Proofs.Settings.Draft
import TwinWall.Proofs.Settings.Loaded
import TwinWall.Proofs.Text.Utf8

/-! Settings that are saved and loaded again. A saving may fail at each of its steps, and leaves the file as it
was then. -/
namespace TwinWall
namespace Settings

open Files SaveStep

variable {c : Settings} {f g : Files} {path : String} {fault : Option SaveFault} {octets : List UInt8}
  {above idle : List (List Char)} {name : List Char} {e : FileError}

section Drafts

/-- A draft is a new entry of some directory, where there was no directory. -/
structure Drafted (f : Files) (path : String) (octets : List UInt8) (g : Files) (d : Place)
    (name : String) : Prop where
  draft : ∃ parsed, Path.read (draftPath path) = .ok parsed ∧ f.locate parsed = .ok (d ++ [name])
  directory : f.find? d = some .directory
  no_directory : f.find? (d ++ [name]) ≠ some .directory
  eq : g = f.put (d ++ [name]) (.file octets)

theorem Drafted.beside {d : Place} {name : String} (h : Drafted f path octets g d name) :
    Beside f g (d ++ [name]) := by
  rw [h.eq]
  exact beside_put h.directory h.no_directory

theorem drafted_of_write (hnamed : Named path above name idle) (h : f.write (draftPath path) octets = .ok g) :
    ∃ d, directoryOf f above = .ok d ∧ Drafted f path octets g d (String.ofList (draftName name)) := by
  obtain ⟨⟨p, o⟩, hwritable, h⟩ := Policy.bind_eq_ok.1 h
  cases h
  obtain ⟨parsed, hread, hlocate, -, hp⟩ := writable_eq_ok hwritable
  obtain ⟨d, hd, hdirectory, rfl⟩ := place_of_draft hnamed hread hlocate
  exact ⟨d, hd, ⟨parsed, hread, hlocate⟩, hdirectory, hp, rfl⟩

/-- What is there before a saving moves anything: what was there, or a draft beside it. -/
def Left (f : Files) (path : String) (g : Files) : Prop :=
  g = f ∨ ∃ octets, f.write (draftPath path) octets = .ok g

theorem Left.write {g' : Files} (h : Left f path g) (hwrite : g.write (draftPath path) octets = .ok g') :
    Left f path g' := by
  rcases h with rfl | ⟨o, h⟩
  · exact .inr ⟨octets, hwrite⟩
  · exact .inr ⟨octets, (write_write h octets).symm.trans hwrite⟩

/-- It leads to the same octets as before. -/
theorem Left.readOctets_iff (hname : HasName path) (h : Left f path g) (o : List UInt8) :
    g.readOctets path = .ok o ↔ f.readOctets path = .ok o := by
  rcases h with rfl | ⟨octets, h⟩
  · exact Iff.rfl
  · obtain ⟨above, name, idle, hnamed⟩ := hname
    obtain ⟨d, -, hdrafted⟩ := drafted_of_write hnamed h
    obtain ⟨draft, hread, hlocate⟩ := hdrafted.draft
    exact hdrafted.beside.readOctets_iff fun parsed hparsed =>
      locate_ne_of_draft ⟨above, name, idle, hnamed⟩ hread hlocate hparsed

end Drafts

section Steps

variable {step : SaveStep} {steps : List SaveStep} {g' : Files}

theorem Left.perform (h : Left f path g) (hstep : step ≠ moving)
    (hperform : step.perform path octets g = .ok g') : Left f path g' := by
  cases step with
  | opening => exact h.write hperform
  | writing => exact h.write hperform
  | syncing =>
    cases hperform
    exact h
  | moving => exact absurd rfl hstep

theorem Left.breakOff {n : Nat} (h : Left f path g) (hbroken : step.breakOff path octets n g = .ok g') :
    Left f path g' := by
  cases step with
  | writing => exact h.write hbroken
  | _ =>
    cases hbroken
    exact h

/-- A step is done if it can be, unless it is at fault. -/
theorem run_eq_ok : run path octets fault g step = .ok g' ↔
    step.perform path octets g = .ok g' ∧ ∀ x ∈ fault, x.step ≠ step := by
  rw [run]
  split
  · next hfault =>
    have hnone : ∀ x ∈ fault, x.step ≠ step := fun x hx => by
      simpa using Option.filter_eq_none_iff.1 hfault x hx
    cases step.perform path octets g with
    | error e => simp [Except.mapError]
    | ok g1 => simpa [Except.mapError] using fun _ => hnone
  · next x hfault =>
    obtain ⟨hx, hstep⟩ := Option.filter_eq_some_iff.1 hfault
    refine ⟨fun h => ?_, fun h => absurd (of_decide_eq_true hstep) (h.2 x hx)⟩
    obtain ⟨g1, -, h⟩ := Policy.bind_eq_ok.1 h
    cases h

/-- A step that fails leaves the tree as it was, or was broken off. -/
theorem run_eq_error (h : run path octets fault g step = .error (e, g')) :
    g' = g ∨ ∃ n, step.breakOff path octets n g = .ok g' := by
  have hkept : ∀ r : Except FileError Files,
      r.mapError (fun e => (step.reason e, g)) = .error (e, g') → g' = g := by
    rintro (e' | g1) hr <;> cases hr
    rfl
  rw [run] at h
  split at h
  · exact .inl (hkept _ h)
  · next x _ =>
    rcases Policy.bind_eq_error.1 h with h | ⟨g1, hbroken, h⟩
    · exact .inl (hkept _ h)
    · cases h
      cases hleft : step.breakOff path octets x.written g with
      | error e' =>
        rw [hleft] at hbroken
        cases hbroken
      | ok g2 =>
        rw [hleft] at hbroken
        cases hbroken
        exact .inr ⟨x.written, hleft⟩

theorem Left.run (h : Left f path g) (hrun : run path octets fault g step = .error (e, g')) :
    Left f path g' := by
  rcases run_eq_error hrun with rfl | ⟨n, hbroken⟩
  · exact h
  · exact h.breakOff hbroken

/-- Nothing is moved but at the end of a saving, so one that fails has moved nothing. -/
theorem Left.foldlM (hlast : moving ∉ steps.dropLast) (h : Left f path g)
    (hrun : steps.foldlM (SaveStep.run path octets fault) g = .error (e, g')) : Left f path g' := by
  induction steps generalizing g with
  | nil => cases hrun
  | cons step rest ih =>
    rw [List.foldlM_cons] at hrun
    rcases Policy.bind_eq_error.1 hrun with hrun | ⟨g1, hok, hrun⟩
    · exact h.run hrun
    · cases rest with
      | nil => cases hrun
      | cons next rest =>
        rw [List.dropLast_cons_cons, List.mem_cons, not_or] at hlast
        exact ih hlast.2 (h.perform (Ne.symm hlast.1) (run_eq_ok.1 hok).1) hrun

theorem left_of_save (h : c.save f path fault = (.error e, g)) : Left f path g := by
  rw [save] at h
  split at h
  · cases h
  · next hrun =>
    cases h
    exact .foldlM (by decide) (.inl rfl) hrun

/-- A saving that does not fail writes a draft and moves it, and none of its steps is at fault. -/
theorem save_eq_ok : c.save f path fault = (.ok (), g) ↔ fault = none ∧
    ∃ f', f.write (draftPath path) (Text.Utf8.encode c.toJson.pretty) = .ok f' ∧
      f'.rename (draftPath path) path = .ok g := by
  have hrun : c.save f path fault = (.ok (), g) ↔
      all.foldlM (run path (Text.Utf8.encode c.toJson.pretty) fault) f = .ok g := by
    rw [save]
    split <;> simp_all
  rw [hrun]
  simp only [all, List.foldlM_cons, List.foldlM_nil, Policy.bind_eq_ok, run_eq_ok]
  constructor
  · rintro ⟨f1, ⟨hopen, hopening⟩, f2, ⟨hwrite, hwriting⟩, f3, ⟨hsync, hsyncing⟩, f4, ⟨hmove, hmoving⟩, hend⟩
    cases hsync
    cases hend
    refine ⟨Option.eq_none_iff_forall_not_mem.2 fun x hx => ?_, f2, ?_, hmove⟩
    · cases hstep : x.step with
      | opening => exact hopening x hx hstep
      | writing => exact hwriting x hx hstep
      | syncing => exact hsyncing x hx hstep
      | moving => exact hmoving x hx hstep
    · exact (write_write hopen _).symm.trans hwrite
  · rintro ⟨rfl, f2, hwrite, hmove⟩
    obtain ⟨f1, hopen⟩ := exists_write hwrite []
    have hagain := (write_write hopen _).trans hwrite
    have hnone : ∀ step : SaveStep, ∀ x ∈ (none : Option SaveFault), x.step ≠ step := by simp
    exact ⟨f1, ⟨hopen, hnone _⟩, f2, ⟨hagain, hnone _⟩, f2, ⟨rfl, hnone _⟩, g, ⟨hmove, hnone _⟩, rfl⟩

theorem fails_of_fault (c : Settings) (f : Files) (path : String) (x : SaveFault) :
    ∃ e g, c.save f path (some x) = (.error e, g) := by
  cases h : c.save f path (some x) with
  | mk result g =>
    cases result with
    | ok u => cases (save_eq_ok.1 h).1
    | error e => exact ⟨e, g, rfl⟩

/-- The tree behind a fault, with nothing of the draft, its first octets or all of it at its place. -/
def remains (octets : List UInt8) (f : Files) (p : Place) (x : SaveFault) : Files :=
  match x.step with
  | opening => f
  | writing => f.put p (.file (octets.take x.written))
  | syncing | moving => f.put p (.file octets)

theorem save_at_fault (c : Settings) {p : Place} {o : List UInt8}
    (hdraft : f.writable (draftPath path) = .ok (p, o)) (x : SaveFault) : c.save f path (some x) =
      (.error (x.step.reason x.error), remains (Text.Utf8.encode c.toJson.pretty) f p x) := by
  have hput : ∀ octets, f.write (draftPath path) octets = .ok (f.put p (.file octets)) := by
    intro octets
    rw [write, hdraft]
    rfl
  have hagain := fun octets => write_write (hput []) octets
  obtain ⟨step, n, e⟩ := x
  cases step <;>
    simp [save, all, SaveStep.run, SaveStep.perform, SaveStep.breakOff, Option.filter_some, hput, hagain,
      Except.mapError, remains, bind, Except.bind]

end Steps

section Loading

/-- Settings depend on the octets of their file only. -/
theorem load_congr (h : ∀ o, g.readOctets path = .ok o ↔ f.readOctets path = .ok o) :
    load g path = load f path := by
  have htext : g.readText path = f.readText path ∨
      (∃ e, g.readText path = .error e) ∧ ∃ e, f.readText path = .error e := by
    cases hf : f.readOctets path with
    | ok o =>
      left
      rw [readText, readText, hf, (h o).2 hf]
    | error e =>
      right
      cases hg : g.readOctets path with
      | ok o => exact absurd (hf.symm.trans ((h o).1 hg)) (by simp)
      | error e' =>
        rw [readText, readText, hf, hg]
        exact ⟨⟨e', rfl⟩, e, rfl⟩
  rcases htext with htext | ⟨⟨e, hg⟩, e', hf⟩
  · rw [load, load, htext]
  · rw [load, load, hg, hf]

/-- A draft that was moved to the file is what the file holds. -/
theorem readOctets_of_moved (hname : HasName path) {f' : Files}
    (hdraft : f.write (draftPath path) octets = .ok f') (hmoved : f'.rename (draftPath path) path = .ok g) :
    g.readOctets path = .ok octets := by
  obtain ⟨above, name, idle, hnamed⟩ := hname
  obtain ⟨d, hd, hdrafted⟩ := drafted_of_write hnamed hdraft
  obtain ⟨draft, hread, hlocate⟩ := hdrafted.draft
  obtain ⟨p, q, b, hrenamed⟩ := renamed_of_rename hmoved
  obtain ⟨source, hsource, hp⟩ := hrenamed.source
  obtain ⟨target, htarget, hq, hwants⟩ := hrenamed.target
  have hbeside := hdrafted.beside
  -- the places are those of the tree before the draft
  cases hread.symm.trans hsource
  cases hlocate.symm.trans (hbeside.locate_iff.1 hp)
  have hq := hbeside.locate_iff.1 hq
  obtain ⟨d', hd', rfl⟩ := place_of_path hnamed htarget hq
  cases hd.symm.trans hd'
  have hfile : b = octets := by
    have hfile := hrenamed.file
    rw [hdrafted.eq, find?_put_self] at hfile
    cases hfile
    rfl
  have hne : d ++ [String.ofList name] ≠ d ++ [String.ofList (draftName name)] := fun heq =>
    locate_ne_of_draft ⟨above, name, idle, hnamed⟩ hread hlocate htarget (heq ▸ hq)
  have hno : f.find? (d ++ [String.ofList name]) ≠ some .directory := by
    rw [← hbeside.find? _ hne]
    exact hrenamed.no_directory
  have hgrown := (grown_moved (e := .file b) hdrafted.no_directory hno).locate hq
  have heq : g = (f.drop (d ++ [String.ofList (draftName name)])).put (d ++ [String.ofList name]) (.file b) := by
    rw [hrenamed.eq, hdrafted.eq, drop_put]
  subst hfile
  rw [readOctets, htarget, heq]
  simp [bind, Except.bind, hgrown, hwants]

/-- A saving that did not fail has moved the draft to the file. -/
theorem load_of_save (hc : c.InRange) (hname : HasName path) (h : c.save f path fault = (.ok (), g)) :
    load g path = c := by
  obtain ⟨-, f', hdraft, hmoved⟩ := save_eq_ok.1 h
  have htext : g.readText path = .ok c.toJson.pretty := by
    rw [readText, readOctets_of_moved hname hdraft hmoved]
    simp [bind, Except.bind, Text.Utf8.decode?_encode]
  rw [load, htext]
  exact ofText_pretty hc

/-- Settings are saved where the draft and the file can be written. -/
theorem exists_save (c : Settings) {p q : Place} {o o' : List UInt8} (hname : HasName path)
    (hdraft : f.writable (draftPath path) = .ok (p, o)) (hfile : f.writable path = .ok (q, o')) :
    ∃ g, c.save f path = (.ok (), g) := by
  obtain ⟨above, name, idle, hnamed⟩ := hname
  obtain ⟨source, hsource, hp, -, hpdirectory⟩ := writable_eq_ok hdraft
  obtain ⟨target, htarget, hq, hwants, hqdirectory⟩ := writable_eq_ok hfile
  obtain ⟨d, -, hdirectory, rfl⟩ := place_of_draft hnamed hsource hp
  have hbeside := beside_put (b := Text.Utf8.encode c.toJson.pretty) hdirectory hpdirectory
  have hne : q ≠ d ++ [String.ofList (draftName name)] := fun heq =>
    locate_ne_of_draft ⟨above, name, idle, hnamed⟩ hsource hp htarget (heq ▸ hq)
  have hnames := names_of_path hnamed htarget hq hqdirectory
  have hknown := hnamed.known
  simp only [isIdle, Bool.or_eq_false_iff, decide_eq_false_iff_not] at hknown
  have hempty : target.names ≠ [] := by simp [hnames]
  have hlast : target.names.getLast? = some (String.ofList name) := by simp [hnames]
  have hpoint : String.ofList name ≠ "." := ofList_ne hknown.2
  have hparent : String.ofList name ≠ ".." := ofList_ne hnamed.not_parent
  have hkept := hbeside.find? q hne
  have hmoved : ∃ g, (f.put (d ++ [String.ofList (draftName name)])
      (.file (Text.Utf8.encode c.toJson.pretty))).rename (draftPath path) path = .ok g := by
    simp [rename, hsource, htarget, hbeside.locate_iff.2 hp, hbeside.locate_iff.2 hq, hempty, hlast, hpoint,
      hparent, hwants, hkept, hqdirectory, bind, Except.bind]
  obtain ⟨g, hmoved⟩ := hmoved
  exact ⟨g, save_eq_ok.2 ⟨rfl, _, Policy.bind_eq_ok.2 ⟨_, hdraft, rfl⟩, hmoved⟩⟩

end Loading

/-- Settings are loaded as they were saved, and they are saved where the draft and the file can be written. A
saving that fails, wherever it does, leaves the file as it was, and so the settings that are loaded; it does fail
if one of its steps is at fault, and leaves no more than a draft. A draft never has the path of the file. What an
object has of the fields of some settings is loaded, and the other fields are as they are without a file. -/
theorem saved_settled (hc : c.InRange) (hname : HasName path) :
    draftPath path ≠ path ∧
    (∀ f fault g, c.save f path fault = (.ok (), g) → load g path = c) ∧
    (∀ f p q o o', f.writable (draftPath path) = .ok (p, o) → f.writable path = .ok (q, o') →
      ∃ g, c.save f path = (.ok (), g)) ∧
    (∀ f fault e g, c.save f path fault = (.error e, g) →
      (∀ o, g.readOctets path = .ok o ↔ f.readOctets path = .ok o) ∧ load g path = load f path) ∧
    (∀ f x, ∃ e g, c.save f path (some x) = (.error e, g)) ∧
    (∀ f x p o, f.writable (draftPath path) = .ok (p, o) → c.save f path (some x) =
      (.error (x.step.reason x.error), remains (Text.Utf8.encode c.toJson.pretty) f p x)) ∧
    ∀ f place text ms, f.readText place = .ok text → Holds c text ms →
      load f place = c.part (ms.map Json.MemberText.key) := by
  refine ⟨draftPath_ne hname, fun f fault g h => load_of_save hc hname h,
    fun f p q o o' hdraft hfile => exists_save c hname hdraft hfile, fun f fault e g h => ?_,
    fun f x => fails_of_fault c f path x, fun f x p o hdraft => save_at_fault c hdraft x,
    fun f place text ms htext h => ?_⟩
  · have hoctets := (left_of_save h).readOctets_iff hname
    exact ⟨hoctets, load_congr hoctets⟩
  · rw [load, htext]
    exact ofText_holds hc h

section Data

theorem named_config : Named "/data/config.json" [[], "data".toList] "config.json".toList [] where
  parts := by decide
  behind := nofun
  known := by decide
  not_parent := by decide

/-- A directory with an empty object as the settings. -/
def emptied : Files := { entries := [(["data", "config.json"], .file [0x7b, 0x7d])] }

theorem writable_emptied :
    emptied.writable "/data/config.json" = .ok (["data", "config.json"], [0x7b, 0x7d]) := rfl

theorem writable_draftPath :
    emptied.writable (draftPath "/data/config.json") = .ok (["data", "config.json.tmp"], []) := rfl

theorem readText_emptied : emptied.readText "/data/config.json" = .ok "\x7b\x7d" := by
  have hoctets : emptied.readOctets "/data/config.json" = .ok [0x7b, 0x7d] := rfl
  rw [readText, hoctets]
  rfl

/-- Settings that take the place of an empty object, and the same settings where their writing fails after five
octets and where their draft is not moved. -/
theorem saved_settled_data :
    let path := "/data/config.json"
    let c : Settings := { user := "a\n\"b", timeout := 3 }
    let begun := emptied.put ["data", "config.json.tmp"] (.file [0x7b, 0x0a, 0x20, 0x20, 0x22])
    let drafted := emptied.put ["data", "config.json.tmp"] (.file (Text.Utf8.encode c.toJson.pretty))
    (c.InRange ∧ HasName path) ∧
    (∃ g, c.save emptied path = (.ok (), g) ∧ load g path = c) ∧
    (c.save emptied path (some ⟨.writing, 5, .denied⟩) = (.error .denied, begun) ∧
      load begun path = load emptied path) ∧
    (c.save emptied path (some ⟨.moving, 0, .noSpace⟩) = (.error .diskFull, drafted) ∧
      load drafted path = load emptied path) ∧
    load emptied path = {} := by
  intro path c begun drafted
  have hc : c.InRange := ⟨by decide, by decide, by decide⟩
  have hname : HasName path := ⟨_, _, _, named_config⟩
  obtain ⟨-, hsaved, hexists, hfailed, -, hfault, hread⟩ := saved_settled hc hname
  have hbegun : c.save emptied path (some ⟨.writing, 5, .denied⟩) = (.error .denied, begun) := by
    have hoctets : (Text.Utf8.encode c.toJson.pretty).take 5 = [0x7b, 0x0a, 0x20, 0x20, 0x22] := by
      decide +kernel
    rw [hfault emptied _ _ _ writable_draftPath, remains]
    simp only [hoctets]
    rfl
  have hdrafted := hfault emptied ⟨.moving, 0, .noSpace⟩ _ _ writable_draftPath
  have hempty : Holds c "\x7b\x7d" [] :=
    ⟨⟨[], [], [], Json.gaps_nil, .none Json.gaps_nil, Json.gaps_nil, rfl⟩, nofun, by simp⟩
  obtain ⟨g, hg⟩ := hexists emptied _ _ _ _ writable_draftPath writable_emptied
  exact ⟨⟨hc, hname⟩, ⟨g, hg, hsaved emptied none g hg⟩, ⟨hbegun, (hfailed emptied _ .denied _ hbegun).2⟩,
    ⟨hdrafted, (hfailed emptied _ .diskFull _ hdrafted).2⟩,
    (hread emptied path _ [] readText_emptied hempty).trans (part_nil c)⟩

end Data

end Settings
end TwinWall
