import TwinWall.Cli.Session
import TwinWall.Proofs.Deploy.Order

/-! Which operations look at the names of a target before these stand in a command. A build does, as it
begins with a document for the target; a scrub and a listing of the table do not. -/
namespace TwinWall
namespace Deploy

open Cli Policy Remote

/-- Words of the command line with the names of a target. -/
structure Names (words : TargetWords) (t : Target) : Prop where
  namespaceName : words.namespaceName = t.namespaceName
  table : words.table = t.table

variable {t : Target} {errors : List NameError}

theorem Names.check_targetOf {words : TargetWords} (h : Names words t) (settings : Settings) :
    (Session.targetOf settings words).check = t.check := by
  simp only [Target.check, Session.targetOf, h.namespaceName, h.table]

/-- The priority of a target is in no command. -/
theorem Names.command_targetOf {words : TargetWords} (h : Names words t) (settings : Settings)
    (directory document : String) (step : Step) :
    Plan.command ⟨Session.targetOf settings words, directory, document⟩ step =
      Plan.command ⟨t, directory, document⟩ step := by
  cases step <;>
    simp only [Plan.command, Plan.nft, Plan.path, Plan.fileName, Session.targetOf, h.namespaceName, h.table]

theorem build_error (h : t.check = .error errors) (s : Spec) : ∃ e, Document.build s t = .error e := by
  rw [Document.build]
  split
  · exact ⟨_, rfl⟩
  · rename_i p hp
    have hassemble : Document.assemble p t = .error (.target errors) := by
      rw [Document.assemble, h]
    rw [hassemble]
    exact ⟨_, rfl⟩

theorem documentOf_error (h : t.check = .error errors) (w : Cli.World) (policy : String) :
    ∃ e, Session.documentOf w policy t = .error e := by
  rw [Session.documentOf]
  cases Spec.load w.files policy with
  | error e => exact ⟨e, rfl⟩
  | ok spec =>
    obtain ⟨e, he⟩ := build_error h spec
    refine ⟨.policy e, ?_⟩
    show (Document.build spec t).mapError Error.policy = _
    rw [he]
    rfl

theorem status_ne_zero (e : Error) : e.status ≠ 0 := by
  cases e with
  | deploy f =>
    rw [Error.status]
    split <;> decide
  | _ => exact Nat.one_ne_zero

theorem calls_record (w : Cli.World) (s : Surroundings) (r : Audit.Report) :
    (w.record s r).calls = w.calls := by
  rw [Cli.World.record]
  split
  · rfl
  · split <;> rfl

theorem calls_conclude (s : Surroundings) (w : Cli.World) (event : Option String → Bool → Audit.Report)
    (message : String) (r : Except Failure Record) :
    (Session.conclude s w event message r).1.calls = w.calls := by
  cases r <;> exact calls_record ..

/-- A run on a node starts with the first step of the operation. -/
theorem runOn_first (s : Site) (o : Operation) (p : Plan) (n : Node) (calls : List Call) (r : Record) :
    ∃ more, (s.runOn o p n calls r).2 = calls ++ p.call n o.first :: more := by
  obtain ⟨done, stop, hcourse, hsteps⟩ := stepsFrom_course s o n p o.first false calls r
  obtain ⟨x, xs, hxs, hfirst⟩ := hcourse.head
  have hnode : x.node = n := hcourse.exchange_node x (by simp [hxs])
  have hcalls := exchanges_calls p n done stop
  rw [hxs, List.map_cons, Exchange.call, hnode, hfirst] at hcalls
  refine ⟨xs.map (Exchange.call p), ?_⟩
  rw [Site.runOn, hsteps, List.append_assoc, ← hcalls]

theorem runOnBoth_first (s : Site) (o : Operation) (p : Plan) (calls : List Call) :
    ∃ more, (s.runOnBoth o p calls).2 = calls ++ p.call s.topology.enabled o.first :: more := by
  obtain ⟨more, hmore⟩ := runOn_first s o p s.topology.enabled calls []
  rw [Site.runOnBoth]
  cases hrun : s.runOn o p s.topology.enabled calls [] with
  | mk outcome calls' =>
    rw [hrun] at hmore
    cases outcome with
    | error f => exact ⟨more, hmore⟩
    | ok r =>
      obtain ⟨rest, hrest⟩ := runOn_first s o p s.topology.disabled calls' r
      have hmore : calls' = calls ++ p.call s.topology.enabled o.first :: more := hmore
      refine ⟨more ++ p.call s.topology.disabled o.first :: rest, ?_⟩
      show (s.runOn o p s.topology.disabled calls' r).2 = _
      rw [hrest, hmore, List.append_assoc, List.cons_append]

theorem read_calls (site : Site) (t : Target) (calls : List Call) : (site.read t calls).2 =
    calls ++ site.topology.nodes.map fun n => (site.plan t "").call n .listing := by
  simp [Site.read, Site.list, Topology.nodes, Plan.call]

section Command

variable {s : Surroundings} {w : Cli.World} {r : Request} {settings : Settings} {topology : Topology}

theorem calls_scrub (h : Session.topologyOf w r settings = .ok topology) (t : Target) :
    (Session.scrub s w r settings t).1.calls =
      settings.ssh.calls w.calls ((Session.siteOf s w settings topology).scrub t []).2 := by
  rw [Session.scrub, h]
  exact calls_conclude ..

theorem calls_read (h : Session.topologyOf w r settings = .ok topology) (t : Target)
    (difference : Bool) : (Session.read s w r settings t difference).1.calls =
      settings.ssh.calls w.calls ((Session.siteOf s w settings topology).read t []).2 := by
  rw [Session.read, h]
  exact calls_record ..

end Command

/-- What becomes of a target whose names are refused: a build makes no call, and the other operations
make theirs with the names as they are. -/
structure Exposure (t : Target) : Prop where
  document : ∀ spec, ∃ e, Document.build spec t = .error e
  build : ∀ s w config top policy words, Names words t →
    (Session.answer s w ⟨config, top, .build policy words⟩).1.calls = w.calls ∧
      (Session.answer s w ⟨config, top, .build policy words⟩).2.status ≠ 0
  scrub : ∀ (site : Site) calls, ∃ more, (site.scrub t calls).2 =
    calls ++ (site.plan t "").call site.topology.enabled .lookingUp :: more
  read : ∀ (site : Site) calls, (site.read t calls).2 =
    calls ++ site.topology.nodes.map fun n => (site.plan t "").call n .listing
  scrubCommand : ∀ s w config top words settings topology, Names words t →
    Settings.load w.files (config.getD s.settingsPath) = settings →
    Session.topologyOf w ⟨config, top, .scrub words⟩ settings = .ok topology →
    ∃ more, (Session.answer s w ⟨config, top, .scrub words⟩).1.calls =
      settings.ssh.calls w.calls
        (Plan.call ⟨t, settings.directory, ""⟩ topology.enabled .lookingUp :: more)
  readCommand : ∀ s w config top words difference settings topology, Names words t →
    Settings.load w.files (config.getD s.settingsPath) = settings →
    Session.topologyOf w ⟨config, top, .read words difference⟩ settings = .ok topology →
    (Session.answer s w ⟨config, top, .read words difference⟩).1.calls =
      settings.ssh.calls w.calls
        (topology.nodes.map fun n => Plan.call ⟨t, settings.directory, ""⟩ n .listing)

/-- Only a build is closed to names that are refused. -/
theorem exposure_of_check (h : t.check = .error errors) : Exposure t where
  document := build_error h
  build := by
    intro s w config top policy words hnames
    have hcheck := hnames.check_targetOf (Settings.load w.files (config.getD s.settingsPath))
    obtain ⟨e, he⟩ := documentOf_error (hcheck.trans h) w policy
    have hanswer : Session.answer s w ⟨config, top, .build policy words⟩ = (w, .failed e) := by
      simp only [Session.answer, Session.build, he]
    rw [hanswer]
    exact ⟨rfl, status_ne_zero e⟩
  scrub := fun site calls => runOnBoth_first site .scrub (site.plan t "") calls
  read := fun site calls => read_calls site t calls
  scrubCommand := by
    intro s w config top words settings topology hnames hsettings htop
    obtain ⟨more, hmore⟩ := runOnBoth_first (Session.siteOf s w settings topology) .scrub
      ⟨Session.targetOf settings words, settings.directory, ""⟩ []
    rw [Plan.call, hnames.command_targetOf] at hmore
    refine ⟨more, ?_⟩
    rw [Session.answer, hsettings]
    exact (calls_scrub htop _).trans (congrArg _ hmore)
  readCommand := by
    intro s w config top words difference settings topology hnames hsettings htop
    have hread := read_calls (Session.siteOf s w settings topology) (Session.targetOf settings words) []
    have hcall : ∀ n, Plan.call ⟨Session.targetOf settings words, settings.directory, ""⟩ n .listing =
        Plan.call ⟨t, settings.directory, ""⟩ n .listing := by
      intro n
      rw [Plan.call, hnames.command_targetOf, Plan.call]
    rw [Session.answer, hsettings]
    refine (calls_read htop _ difference).trans (congrArg _ (hread.trans ?_))
    exact List.map_congr_left fun n _ => hcall n

/-- A scrub of a namespace whose name ends one command and begins another. -/
def breakingTarget : Target := ⟨"ns; reboot", "fw", 0⟩

theorem breakingTarget_check :
    breakingTarget.check = .error [.blank "namespace" "ns; reboot"] := by
  rfl

theorem exposure_of_breakingTarget :
    breakingTarget.check = .error [.blank "namespace" "ns; reboot"] ∧ Exposure breakingTarget :=
  ⟨breakingTarget_check, exposure_of_check breakingTarget_check⟩

/-- Nodes that run every command and find no table. -/
def tableless : Site :=
  ⟨fun _ _ => .ok ⟨1, "", ""⟩, ⟨"/opt/robot/config.json", "2a02:2078:3::10:0:2", "2a02:2078:3::10:0:3"⟩,
    "/tmp"⟩

theorem stepsFrom_tableless (p : Plan) (n : Node) (calls : List Call) (r : Record) :
    tableless.stepsFrom .scrub n p .lookingUp false calls r =
      (.ok (r ++ [⟨n, .lookingUp, ⟨1, "", ""⟩⟩]), calls ++ [p.call n .lookingUp]) := by
  rw [Site.stepsFrom]
  rfl

/-- The names are refused, and still the scrub succeeds and both nodes have run the other command. -/
theorem scrub_unguarded : breakingTarget.check = .error [.blank "namespace" "ns; reboot"] ∧
    ∃ r, tableless.scrub breakingTarget [] = (.ok r,
      [⟨⟨"2a02:2078:3::10:0:2", .enabled⟩,
          "ip netns exec ns; reboot nft list tables | grep -qxF 'table inet fw'"⟩,
        ⟨⟨"2a02:2078:3::10:0:3", .disabled⟩,
          "ip netns exec ns; reboot nft list tables | grep -qxF 'table inet fw'"⟩]) := by
  have hrun : tableless.scrub breakingTarget [] =
      (.ok (tableless.topology.nodes.map fun n => ⟨n, .lookingUp, ⟨1, "", ""⟩⟩),
        tableless.topology.nodes.map fun n => (tableless.plan breakingTarget "").call n .lookingUp) := by
    simp only [Site.scrub, Site.runOnBoth, Site.runOn, Operation.first, stepsFrom_tableless]
    rfl
  have hcommand : (tableless.plan breakingTarget "").command .lookingUp =
      "ip netns exec ns; reboot nft list tables | grep -qxF 'table inet fw'" := by
    decide +kernel
  refine ⟨breakingTarget_check, tableless.topology.nodes.map fun n => ⟨n, .lookingUp, ⟨1, "", ""⟩⟩, ?_⟩
  rw [hrun]
  simp only [Plan.call, hcommand]
  rfl

end Deploy
end TwinWall
