import TwinWall.Proofs.Cli.Operated
import TwinWall.Proofs.Files.Grown

/-! What a command leaves in the audit log. Every operation on the nodes adds one line, which tells whether the
command succeeds. A check adds one too, but for a sound policy without a verdict. -/
namespace TwinWall
namespace Cli

open Audit Deploy Files Policy

/-- The directories can be made and the log can be written. It holds some octets then, none if it is new. -/
def LogReady (s : Surroundings) (f : Files) (log : List UInt8) : Prop :=
  ∃ g p, World.withDirectories s f = (.ok (), g) ∧ g.writable s.logPath = .ok (p, log)

/-- The octets of the line of an event. -/
def lineOf (s : Surroundings) (r : Report) : List UInt8 := Text.Utf8.encode (Log.line ⟨s.now, s.run, r⟩)

theorem withDirectories_of_made {s : Surroundings} {f : Files} (hsettings : Made f s.settingsDirectory)
    (hlog : Made f s.logDirectory) : World.withDirectories s f = (.ok (), f) := by
  simp only [World.withDirectories, hsettings.makeDirectories, hlog.makeDirectories]

theorem made_of_withDirectories {s : Surroundings} {f g : Files}
    (h : World.withDirectories s f = (.ok (), g)) :
    Made g s.settingsDirectory ∧ Made g s.logDirectory := by
  rw [World.withDirectories] at h
  split at h
  · cases h
  · next f' hf' =>
    split at h
    · cases h
    · next g' hg' =>
      cases h
      obtain ⟨hgrown, hlog⟩ := made_of_makeDirectories hg'
      exact ⟨(made_of_makeDirectories hf').2.grown hgrown, hlog⟩

/-- The log is what it was and has one line more: of an event of some kind that succeeded just if the command
ends with the status zero. -/
def Logged (s : Surroundings) (kind : EventKind) (log : List UInt8) (x : World × Outcome) : Prop :=
  ∃ report : Report, report.kind = kind ∧ (report.success = true ↔ x.2.status = 0) ∧
    x.1.files.readOctets s.logPath = .ok (log ++ lineOf s report) ∧
    LogReady s x.1.files (log ++ lineOf s report)

section Record

variable {s : Surroundings} {w : World} {log : List UInt8}

theorem logged_of_record (h : LogReady s w.files log) {report : Report} {o : Outcome}
    {kind : EventKind} (hkind : report.kind = kind) (hsuccess : report.success = true ↔ o.status = 0) :
    Logged s kind log (w.record s report, o) := by
  obtain ⟨g, p, hmade, hwritable⟩ := h
  obtain ⟨hp, hagain, hread⟩ := writable_put hwritable (log ++ lineOf s report)
  have hrecord : w.record s report = { w with files := g.put p (.file (log ++ lineOf s report)) } := by
    have happend : Log.append g s.logPath ⟨s.now, s.run, report⟩ =
        .ok (g.put p (.file (log ++ lineOf s report))) := by
      rw [Log.append, Files.append, hwritable]
      rfl
    rw [World.record, hmade]
    simp only [happend]
  obtain ⟨hsettings, hlog⟩ := made_of_withDirectories hmade
  have hgrown : Grown g (g.put p (.file (log ++ lineOf s report))) := grown_put_file hp
  rw [hrecord]
  exact ⟨report, hkind, hsuccess, hread, _, p,
    withDirectories_of_made (hsettings.grown hgrown) (hlog.grown hgrown), hagain⟩

theorem logged_conclude (event : Option String → Bool → Report) {kind : EventKind}
    (hkind : ∀ error success, (event error success).kind = kind)
    (hevent : ∀ error success, (event error success).success = success) (h : LogReady s w.files log)
    (message : String) (result : Except Failure Record) :
    Logged s kind log (Session.conclude s w event message result) := by
  cases result with
  | ok record => exact logged_of_record h (hkind none true) (by simp [hevent, Outcome.said])
  | error f =>
    refine logged_of_record h (hkind _ false) ?_
    have hstatus : (Outcome.failed (.deploy f)).status ≠ 0 := status_ne_zero (.deploy f)
    simp [hevent, hstatus]

end Record

/-- A command has all it needs for an operation of some kind. -/
inductive Begun (s : Surroundings) (w : World) (r : Request) : EventKind → Prop
  | check {policy : String} {words : TargetWords} {nft : Bool} {spec : Spec}
      (action : r.action = .check policy words nft) (loaded : Spec.load w.files policy = .ok spec) :
      Begun s w r .check
  | build {policy : String} {words : TargetWords} {succeeded : Bool} {calls : List Remote.Call}
      (action : r.action = .build policy words) (operated : Operated s w r succeeded calls) :
      Begun s w r .build
  | scrub {words : TargetWords} {succeeded : Bool} {calls : List Remote.Call}
      (action : r.action = .scrub words) (operated : Operated s w r succeeded calls) : Begun s w r .scrub
  | read {words : TargetWords} {difference : Bool} {succeeded : Bool} {calls : List Remote.Call}
      (action : r.action = .read words difference) (operated : Operated s w r succeeded calls) :
      Begun s w r .read

/-- A check of a sound policy that comes to no verdict: there is no document for the target, or nft was asked
for and could not be run. -/
inductive NoVerdict (s : Surroundings) (w : World) (r : Request) : Prop
  | document {policy : String} {words : TargetWords} {nft : Bool} {spec : Spec} {p : Ruleset}
      {e : Document.AssemblyError} (action : r.action = .check policy words nft)
      (loaded : Spec.load w.files policy = .ok spec) (sound : spec.check = .ok p)
      (refused : Document.assemble p (Session.targetOf (settingsOf s w r) words) = .error e) :
      NoVerdict s w r
  | nft {policy : String} {words : TargetWords} {spec : Spec} {p : Ruleset} {d : Document}
      {reason : String} (action : r.action = .check policy words true)
      (loaded : Spec.load w.files policy = .ok spec) (sound : spec.check = .ok p)
      (document : Document.assemble p (Session.targetOf (settingsOf s w r) words) = .ok d)
      (notRun : (Nft.check s.behaviour w.calls Nft.program d).1 = .notRun reason) : NoVerdict s w r

section Run

variable {s : Surroundings} {w : World} {r : Request} {log : List UInt8}

theorem logged_checkWithNft (h : LogReady s w.files log) {p : Ruleset} {d : Document}
    (hran : ∀ reason, (Nft.check s.behaviour w.calls Nft.program d).1 ≠ .notRun reason) :
    Logged s .check log (Session.checkWithNft s w p d) := by
  cases hnft : Nft.check s.behaviour w.calls Nft.program d with
  | mk verdict calls =>
    have h : LogReady s (World.mk w.files calls).files log := h
    cases verdict with
    | accepted =>
      simp only [Session.checkWithNft, hnft]
      exact logged_of_record h rfl ⟨fun _ => rfl, fun _ => rfl⟩
    | refused l =>
      have hstatus : (Outcome.failedAfter (Session.overview p d) (.refused l)).status ≠ 0 :=
        status_ne_zero (.refused l)
      simp only [Session.checkWithNft, hnft]
      exact logged_of_record h rfl (by simp [Report.check, hstatus])
    | notRun reason => exact absurd (congrArg Prod.fst hnft) (hran reason)

theorem logged_check (h : LogReady s w.files log) {policy : String} {words : TargetWords} {nft : Bool}
    {spec : Spec} (action : r.action = .check policy words nft)
    (loaded : Spec.load w.files policy = .ok spec) (hverdict : ¬ NoVerdict s w r) :
    Logged s .check log (Session.answer s w r) := by
  cases hsound : spec.check with
  | error l =>
    have hstatus : (Outcome.failed (.policy (.invalid l))).status ≠ 0 :=
      status_ne_zero (.policy (.invalid l))
    simp only [answer_check action, Session.check, loaded, hsound]
    exact logged_of_record h rfl (by simp [Report.check, hstatus])
  | ok p =>
    cases hdocument : Document.assemble p (Session.targetOf (settingsOf s w r) words) with
    | error e => exact absurd (.document action loaded hsound hdocument) hverdict
    | ok d =>
      simp only [answer_check action, Session.check, loaded, hsound, hdocument]
      cases nft with
      | false => exact logged_of_record h rfl ⟨fun _ => rfl, fun _ => rfl⟩
      | true => exact logged_checkWithNft h fun reason hnotRun =>
          hverdict (.nft action loaded hsound hdocument hnotRun)

theorem NoVerdict.answer (h : NoVerdict s w r) :
    (Session.answer s w r).1.files = w.files ∧ (Session.answer s w r).2.status = 1 := by
  cases h with
  | @document policy words nft spec p e action loaded sound refused =>
    simp only [answer_check action, Session.check, loaded, sound, refused]
    exact ⟨trivial, rfl⟩
  | @nft policy words spec p d reason action loaded sound document notRun =>
    simp only [answer_check action, Session.check, loaded, sound, document, if_true, Session.checkWithNft]
    cases hnft : Nft.check s.behaviour w.calls Nft.program d with
    | mk verdict calls =>
      rw [hnft] at notRun
      obtain rfl : verdict = .notRun reason := notRun
      exact ⟨rfl, rfl⟩

theorem logged_operated (h : LogReady s w.files log) {kind : EventKind} {succeeded : Bool}
    {calls : List Remote.Call} (hoperated : Operated s w r succeeded calls) (hbegun : Begun s w r kind) :
    Logged s kind log (Session.answer s w r) := by
  have h : LogReady s (Session.withCalls w (settingsOf s w r) calls).files log := h
  cases hoperated with
  | @build policy words d top result succeeded calls action document topology ended outcome =>
    obtain rfl : kind = .build := by
      cases hbegun <;> simp_all
    simp only [answer_build action, Session.build, document, topology, ended]
    exact logged_conclude (.build _ d.checksum) (fun _ _ => rfl) (fun _ _ => rfl) h _ _
  | @scrub words top result succeeded calls action topology ended outcome =>
    obtain rfl : kind = .scrub := by
      cases hbegun <;> simp_all
    simp only [answer_scrub action, Session.scrub, topology, ended]
    exact logged_conclude (.scrub _) (fun _ _ => rfl) (fun _ _ => rfl) h _ _
  | @read words difference top survey succeeded calls action topology ended outcome =>
    obtain rfl : kind = .read := by
      cases hbegun <;> simp_all
    simp only [answer_read action, Session.read, topology, ended]
    refine logged_of_record h rfl ?_
    cases survey.succeeded <;> simp [Report.read]

/-- A command that has all it needs adds one line to the log, which tells whether its status is zero. Only a
check without a verdict fails and adds nothing. -/
theorem logged_of_run {words : List String} {kind : EventKind} (hread : Request.read words = .ok r)
    (hbegun : Begun s w r kind) (hready : LogReady s w.files log) :
    (¬ NoVerdict s w r → Logged s kind log (Session.run s w words)) ∧
      (NoVerdict s w r → (Session.run s w words).1.files = w.files ∧
        (Session.run s w words).2.status = 1) := by
  have hrun : Session.run s w words = Session.answer s w r := by
    rw [Session.run, hread]
  rw [hrun]
  refine ⟨fun hverdict => ?_, NoVerdict.answer⟩
  cases hbegun with
  | check action loaded => exact logged_check hready action loaded hverdict
  | build action operated => exact logged_operated hready operated (.build action operated)
  | scrub action operated => exact logged_operated hready operated (.scrub action operated)
  | read action operated => exact logged_operated hready operated (.read action operated)

end Run

/-- A machine with a policy that asks for nothing, and no log yet. -/
def plainSurroundings : Surroundings where
  settingsDirectory := "/data"
  logDirectory := "/state"
  behaviour := fun _ _ => .notStarted "No such file or directory (os error 2)"
  now := ⟨⟨2026, 1, 1⟩, 0, 0, 0⟩
  run := 0

def plainWorld : World where
  files :=
    { entries := [(["data"], .directory), (["state"], .directory),
        (["p.json"], .file (Text.Utf8.encode "\x7b\x7d"))] }

theorem load_plain : Spec.load plainWorld.files "/p.json" = .ok {} := by
  have htext : plainWorld.files.readText "/p.json" = .ok "\x7b\x7d" := toOption_eq_some.1 (by decide +kernel)
  have hread : Spec.read "\x7b\x7d" = .ok {} := by cbv
  simp only [Spec.load, htext, hread]
  rfl

theorem logReady_plain : LogReady plainSurroundings plainWorld.files [] := by
  have hwritable : plainWorld.files.writable plainSurroundings.logPath = .ok (["state", "audit.log"], []) :=
    toOption_eq_some.1 (by decide +kernel)
  have hsettings : Path.read "/data" = .ok ⟨true, ["data"], false⟩ := toOption_eq_some.1 (by decide +kernel)
  have hlog : Path.read "/state" = .ok ⟨true, ["state"], false⟩ := toOption_eq_some.1 (by decide +kernel)
  have hmade := withDirectories_of_made (s := plainSurroundings) (f := plainWorld.files)
    ⟨_, hsettings, by decide⟩ ⟨_, hlog, by decide⟩
  exact ⟨plainWorld.files, _, hmade, hwritable⟩

def plainCheck (namespaceName : String) : Request :=
  ⟨none, none, .check "/p.json" ⟨namespaceName, "fw", none⟩ false⟩

theorem sound_plain : Spec.check {} = .ok ⟨[], [], [], {}⟩ := by rfl

theorem check_targetOf_plain (namespaceName : String) (settings : Settings) :
    (Session.targetOf settings ⟨namespaceName, "fw", none⟩).check =
      Target.check ⟨namespaceName, "fw", 0⟩ :=
  Names.check_targetOf ⟨rfl, rfl⟩ settings

theorem assemble_plain (settings : Settings) : ∃ d,
    Document.assemble ⟨[], [], [], {}⟩ (Session.targetOf settings ⟨"ns1100", "fw", none⟩) = .ok d := by
  have hcheck : Target.check ⟨"ns1100", "fw", 0⟩ = .ok () := by rfl
  rw [Document.assemble, check_targetOf_plain, hcheck]
  exact ⟨_, rfl⟩

theorem assemble_refused (settings : Settings) :
    Document.assemble ⟨[], [], [], {}⟩ (Session.targetOf settings ⟨"ns 1100", "fw", none⟩) =
      .error (.target [.blank "namespace" "ns 1100"]) := by
  have hcheck : Target.check ⟨"ns 1100", "fw", 0⟩ = .error [.blank "namespace" "ns 1100"] := by rfl
  rw [Document.assemble, check_targetOf_plain, hcheck]

/-- A check of a target that is accepted adds a line to the log, of a check that succeeded. -/
theorem logged_of_run_plain : Request.read ["check", "/p.json", "ns1100", "fw"] = .ok (plainCheck "ns1100") ∧
    Begun plainSurroundings plainWorld (plainCheck "ns1100") .check ∧
    LogReady plainSurroundings plainWorld.files [] ∧
    Logged plainSurroundings .check [] (Session.run plainSurroundings plainWorld
      ["check", "/p.json", "ns1100", "fw"]) := by
  have hread : Request.read ["check", "/p.json", "ns1100", "fw"] = .ok (plainCheck "ns1100") :=
    toOption_eq_some.1 (by decide +kernel)
  have hbegun : Begun plainSurroundings plainWorld (plainCheck "ns1100") .check := .check rfl load_plain
  refine ⟨hread, hbegun, logReady_plain, (logged_of_run hread hbegun logReady_plain).1 ?_⟩
  obtain ⟨d, hd⟩ := assemble_plain (settingsOf plainSurroundings plainWorld (plainCheck "ns1100"))
  rintro (⟨action, loaded, sound, refused⟩ | ⟨action, -, -, -, -⟩)
  · cases action
    cases loaded.symm.trans load_plain
    cases sound.symm.trans sound_plain
    rw [hd] at refused
    cases refused
  · cases action

/-- A check of a target that is refused fails and adds no line. -/
theorem check_without_line : Request.read ["check", "/p.json", "ns 1100", "fw"] = .ok (plainCheck "ns 1100") ∧
    Begun plainSurroundings plainWorld (plainCheck "ns 1100") .check ∧
    LogReady plainSurroundings plainWorld.files [] ∧
    (Session.run plainSurroundings plainWorld ["check", "/p.json", "ns 1100", "fw"]).2.status = 1 ∧
    (Session.run plainSurroundings plainWorld ["check", "/p.json", "ns 1100", "fw"]).1.files =
      plainWorld.files := by
  have hread : Request.read ["check", "/p.json", "ns 1100", "fw"] = .ok (plainCheck "ns 1100") :=
    toOption_eq_some.1 (by decide +kernel)
  have hrun : Session.run plainSurroundings plainWorld ["check", "/p.json", "ns 1100", "fw"] =
      Session.answer plainSurroundings plainWorld (plainCheck "ns 1100") := by
    rw [Session.run, hread]
  have hverdict : NoVerdict plainSurroundings plainWorld (plainCheck "ns 1100") :=
    .document rfl load_plain sound_plain (assemble_refused _)
  obtain ⟨hfiles, hstatus⟩ := hverdict.answer
  rw [hrun]
  exact ⟨hread, .check rfl load_plain, logReady_plain, hstatus, hfiles⟩

end Cli
end TwinWall
