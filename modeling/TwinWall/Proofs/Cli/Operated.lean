import TwinWall.Proofs.Deploy.Guard
import TwinWall.Proofs.Policy.Sound

/-! The commands that are carried out on the nodes. One of them comes to its operation just if it has all it
needs; otherwise it ends with an error and has changed nothing. -/
namespace TwinWall
namespace Cli

open Deploy Policy Remote

/-- The settings that a request is carried out with. -/
def settingsOf (s : Surroundings) (w : World) (r : Request) : Settings :=
  Settings.load w.files (r.settings.getD s.settingsPath)

/-- A command has come to its operation on both nodes, which succeeds or fails and makes some calls. -/
inductive Operated (s : Surroundings) (w : World) (r : Request) : Bool → List Call → Prop
  | build {policy : String} {words : TargetWords} {d : Document} {top : Topology}
      {result : Except Failure Record} {succeeded : Bool} {calls : List Call}
      (action : r.action = .build policy words)
      (document : Session.documentOf w policy (Session.targetOf (settingsOf s w r) words) = .ok d)
      (topology : Session.topologyOf w r (settingsOf s w r) = .ok top)
      (ended : (Session.siteOf s w (settingsOf s w r) top).build d
        (Session.targetOf (settingsOf s w r) words) [] = (result, calls))
      (outcome : result.isOk = succeeded) : Operated s w r succeeded calls
  | scrub {words : TargetWords} {top : Topology} {result : Except Failure Record} {succeeded : Bool}
      {calls : List Call} (action : r.action = .scrub words)
      (topology : Session.topologyOf w r (settingsOf s w r) = .ok top)
      (ended : (Session.siteOf s w (settingsOf s w r) top).scrub
        (Session.targetOf (settingsOf s w r) words) [] = (result, calls))
      (outcome : result.isOk = succeeded) : Operated s w r succeeded calls
  | read {words : TargetWords} {difference : Bool} {top : Topology} {survey : Survey} {succeeded : Bool}
      {calls : List Call} (action : r.action = .read words difference)
      (topology : Session.topologyOf w r (settingsOf s w r) = .ok top)
      (ended : (Session.siteOf s w (settingsOf s w r) top).read
        (Session.targetOf (settingsOf s w r) words) [] = (survey, calls))
      (outcome : survey.succeeded = succeeded) : Operated s w r succeeded calls

/-- The commands that are carried out on the nodes. -/
def Action.onNodes : Action → Bool
  | .build _ _ | .scrub _ | .read _ _ => true
  | _ => false

variable {s : Surroundings} {w : World} {r : Request}

theorem Operated.unique {succeeded succeeded' : Bool} {calls calls' : List Call}
    (h : Operated s w r succeeded calls) (h' : Operated s w r succeeded' calls') :
    succeeded = succeeded' ∧ calls = calls' := by
  cases h <;> cases h' <;> simp_all

theorem status_of_load {files : Files} {path : String} {e : Error} (h : Spec.load files path = .error e) :
    e.status = 1 := by
  rw [Spec.load] at h
  split at h
  · cases h
    rfl
  · obtain ⟨f, -, rfl⟩ := mapError_eq_error.1 h
    rfl

theorem status_of_documentOf {policy : String} {t : Target} {e : Error}
    (h : Session.documentOf w policy t = .error e) : e.status = 1 := by
  rcases bind_eq_error.1 h with hload | ⟨spec, -, hbuild⟩
  · exact status_of_load hload
  · obtain ⟨f, -, rfl⟩ := mapError_eq_error.1 hbuild
    rfl

theorem status_of_topologyOf {settings : Settings} {e : Error}
    (h : Session.topologyOf w r settings = .error e) : e.status = 1 := by
  obtain ⟨f, -, rfl⟩ := mapError_eq_error.1 h
  rfl

section Answer

variable {words : TargetWords}

theorem answer_check {policy : String} {nft : Bool} (h : r.action = .check policy words nft) :
    Session.answer s w r = Session.check s w policy (Session.targetOf (settingsOf s w r) words) nft := by
  rw [Session.answer, h, settingsOf]

theorem answer_build {policy : String} (h : r.action = .build policy words) :
    Session.answer s w r = Session.build s w r (settingsOf s w r) policy
      (Session.targetOf (settingsOf s w r) words) := by
  rw [Session.answer, h, settingsOf]

theorem answer_scrub (h : r.action = .scrub words) :
    Session.answer s w r = Session.scrub s w r (settingsOf s w r)
      (Session.targetOf (settingsOf s w r) words) := by
  rw [Session.answer, h, settingsOf]

theorem answer_read {difference : Bool} (h : r.action = .read words difference) :
    Session.answer s w r = Session.read s w r (settingsOf s w r)
      (Session.targetOf (settingsOf s w r) words) difference := by
  rw [Session.answer, h, settingsOf]

end Answer

/-- A command on the nodes that does not come to its operation changes nothing, and has the status of any other
failure. -/
theorem answer_of_not_operated (hnodes : r.action.onNodes = true)
    (h : ¬ ∃ succeeded calls, Operated s w r succeeded calls) :
    ∃ e : Error, e.status = 1 ∧ Session.answer s w r = (w, .failed e) := by
  cases haction : r.action with
  | build policy words =>
    rw [answer_build haction, Session.build]
    cases hdocument : Session.documentOf w policy (Session.targetOf (settingsOf s w r) words) with
    | error e => exact ⟨e, status_of_documentOf hdocument, rfl⟩
    | ok d =>
      cases htop : Session.topologyOf w r (settingsOf s w r) with
      | error e => exact ⟨e, status_of_topologyOf htop, rfl⟩
      | ok top => exact absurd ⟨_, _, .build haction hdocument htop rfl rfl⟩ h
  | scrub words =>
    rw [answer_scrub haction, Session.scrub]
    cases htop : Session.topologyOf w r (settingsOf s w r) with
    | error e => exact ⟨e, status_of_topologyOf htop, rfl⟩
    | ok top => exact absurd ⟨_, _, .scrub haction htop rfl rfl⟩ h
  | read words difference =>
    rw [answer_read haction, Session.read]
    cases htop : Session.topologyOf w r (settingsOf s w r) with
    | error e => exact ⟨e, status_of_topologyOf htop, rfl⟩
    | ok top => exact absurd ⟨_, _, .read haction htop rfl rfl⟩ h
  | _ => simp [haction, Action.onNodes] at hnodes

/-- Some node is called in any case. -/
theorem Operated.ne_nil {succeeded : Bool} {calls : List Call} (h : Operated s w r succeeded calls) :
    calls ≠ [] := by
  cases h with
  | @build policy words d top result succeeded calls action document topology ended outcome =>
    obtain ⟨more, hmore⟩ := runOnBoth_first (Session.siteOf s w (settingsOf s w r) top) .build
      (Site.plan _ (Session.targetOf (settingsOf s w r) words) d.text) []
    rw [← Site.build, ended] at hmore
    have hcalls : calls = _ := hmore
    simp [hcalls]
  | @scrub words top result succeeded calls action topology ended outcome =>
    obtain ⟨more, hmore⟩ := runOnBoth_first (Session.siteOf s w (settingsOf s w r) top) .scrub
      (Site.plan _ (Session.targetOf (settingsOf s w r) words) "") []
    rw [← Site.scrub, ended] at hmore
    have hcalls : calls = _ := hmore
    simp [hcalls]
  | @read words difference top survey succeeded calls action topology ended outcome =>
    have hlisted := read_calls (Session.siteOf s w (settingsOf s w r) top)
      (Session.targetOf (settingsOf s w r) words) []
    rw [ended] at hlisted
    have hcalls : calls = _ := hlisted
    simp [hcalls, Topology.nodes]

end Cli
end TwinWall
