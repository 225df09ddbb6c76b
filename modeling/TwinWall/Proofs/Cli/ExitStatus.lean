import TwinWall.Proofs.Cli.Operated
import TwinWall.Proofs.Deploy.History

/-! What the status of a command tells about the nodes. A build or a scrub that has lost a node on its way ends
with a status of its own. A read tells a lost node from no other failure. -/
namespace TwinWall
namespace Deploy

open Remote

/-- One of the calls has no output. -/
def Unanswered (e : Executor) (calls : List Call) : Prop :=
  ∃ earlier c later f, calls = earlier ++ c :: later ∧ e earlier c = .error f

section

variable {e : Executor} {p : Plan} {calls : List Call}

theorem Recorded.answered {r : Record} (h : Recorded e p calls r) {earlier later : List Call} {c : Call}
    (hr : r.map (Done.call p) = earlier ++ c :: later) : ∃ out, e (calls ++ earlier) c = .ok out := by
  induction r generalizing calls earlier with
  | nil => simp at hr
  | cons d r ih =>
    obtain ⟨hd, hrest⟩ := h
    cases earlier with
    | nil =>
      obtain ⟨rfl, -⟩ := List.cons.inj hr
      exact ⟨d.output, by simpa using hd⟩
    | cons x earlier =>
      obtain ⟨rfl, htail⟩ := List.cons.inj hr
      obtain ⟨out, hout⟩ := ih hrest htail
      exact ⟨out, by simpa using hout⟩

theorem Recorded.not_unanswered {r : Record} (h : Recorded e p [] r) :
    ¬ Unanswered e (r.map (Done.call p)) := by
  rintro ⟨earlier, c, later, f, hcalls, hf⟩
  obtain ⟨out, hout⟩ := h.answered hcalls
  rw [List.nil_append, hf] at hout
  cases hout

theorem unanswered_append_singleton {c : Call} : Unanswered e (calls ++ [c]) ↔
    Unanswered e calls ∨ ∃ f, e calls c = .error f := by
  constructor
  · rintro ⟨earlier, d, later, f, hcalls, hf⟩
    rcases List.eq_nil_or_concat later with rfl | ⟨later, x, rfl⟩
    · obtain ⟨rfl, hd⟩ := List.append_inj' hcalls rfl
      cases hd
      exact .inr ⟨f, hf⟩
    · rw [List.concat_eq_append, ← List.cons_append, ← List.append_assoc] at hcalls
      exact .inl ⟨earlier, d, later, f, (List.append_inj' hcalls rfl).1, hf⟩
  · rintro (⟨earlier, d, later, f, rfl, hf⟩ | ⟨f, hf⟩)
    · exact ⟨earlier, d, later ++ [c], f, by simp, hf⟩
    · exact ⟨calls, c, [], f, rfl, hf⟩

/-- Some call of a run has no output just if the run failed and its trouble is the channel. -/
theorem Recounts.unanswered_iff {s : Site} {o : Operation} {nodes : List Node}
    {result : Except Failure Record} (h : Recounts s o p nodes [] [] (result, calls)) :
    Unanswered s.executor calls ↔ ∃ f, result = .error f ∧ f.trouble.isChannel = true := by
  cases result with
  | ok r =>
    obtain ⟨done, -, -, hdone, rfl⟩ := h
    simpa using hdone.not_unanswered
  | error f =>
    obtain ⟨done, -, -, hdone, rfl, hreply, -⟩ := h
    rw [List.nil_append] at hreply ⊢
    rw [unanswered_append_singleton, hreply]
    cases htrouble : f.trouble <;>
      simp [htrouble, Trouble.reply, Trouble.isChannel, hdone.not_unanswered]

end

theorem build_recounts (s : Site) (d : Document) (t : Policy.Target) (calls : List Call) :
    Recounts s .build (s.plan t d.text) s.topology.nodes [] calls (s.build d t calls) :=
  (runOnBoth_recounts s .build (s.plan t d.text) calls).1

theorem scrub_recounts (s : Site) (t : Policy.Target) (calls : List Call) :
    Recounts s .scrub (s.plan t "") s.topology.nodes [] calls (s.scrub t calls) :=
  (runOnBoth_recounts s .scrub (s.plan t "") calls).1

theorem not_unanswered_nil (e : Executor) : ¬ Unanswered e [] := by
  rintro ⟨earlier, c, later, f, hcalls, -⟩
  cases earlier <;> cases hcalls

/-- A listing that lost a node has not both tables. -/
theorem read_of_unanswered {s : Site} {t : Policy.Target} {survey : Survey} {calls : List Call}
    (h : s.read t [] = (survey, calls)) (hlost : Unanswered s.executor calls) :
    survey.succeeded = false := by
  cases h
  have hlost : Unanswered s.executor ([] ++ [⟨s.topology.enabled, (s.plan t "").command .listing⟩] ++
    [⟨s.topology.disabled, (s.plan t "").command .listing⟩]) := hlost
  rw [unanswered_append_singleton, unanswered_append_singleton] at hlost
  rcases hlost with (hlost | ⟨f, hfirst⟩) | ⟨f, hsecond⟩
  · exact absurd hlost (not_unanswered_nil _)
  · simp [Survey.succeeded, Listing.table?, hfirst]
  · rw [List.nil_append] at hsecond
    simp [Survey.succeeded, Listing.table?, hsecond]

end Deploy

namespace Cli

open Deploy Policy Remote

/-- The ssh client has not brought its command to the node. -/
def Unreached : Program.Ending → Prop
  | .notStarted _ => True
  | .unfed _ => True
  | .killed _ _ _ _ => True
  | .exited status _ _ => status = Ssh.unreached

theorem unreached_iff {ssh : Ssh} {host : String} {x : Program.Ending} :
    Unreached x ↔ ∃ f, ssh.reply host x = .error f := by
  cases x with
  | notStarted reason => simp [Unreached, Ssh.reply]
  | unfed reason => simp [Unreached, Ssh.reply]
  | killed out err signal dumped => simp [Unreached, Ssh.reply]
  | exited status out err => by_cases h : status = Ssh.unreached <;> simp [Unreached, Ssh.reply, h]

/-- For one of the calls of nodes the ssh client ends without having reached the node. -/
def LostNode (ssh : Ssh) (behaviour : Program.Behaviour) (before : List Program.Call)
    (calls : List Call) : Prop :=
  ∃ earlier c later, calls = earlier ++ c :: later ∧
    Unreached (Program.start behaviour (ssh.calls before earlier) (ssh.call c)).1

theorem lostNode_iff {ssh : Ssh} {behaviour : Program.Behaviour} {before : List Program.Call}
    {calls : List Call} :
    LostNode ssh behaviour before calls ↔ Unanswered (ssh.executor behaviour before) calls := by
  constructor
  · rintro ⟨earlier, c, later, hcalls, hlost⟩
    obtain ⟨f, hf⟩ := unreached_iff.1 hlost
    exact ⟨earlier, c, later, f, hcalls, hf⟩
  · rintro ⟨earlier, c, later, f, hcalls, hf⟩
    exact ⟨earlier, c, later, hcalls, unreached_iff.2 ⟨f, hf⟩⟩

def Action.isRead : Action → Bool
  | .read _ _ => true
  | _ => false

variable {s : Surroundings} {w : World} {r : Request}

/-- The status of a command is 0 for a success, 3 for the loss of a node, and 1 for all else. -/
structure Tells (status : Nat) (succeeded lost : Prop) : Prop where
  zero : status = 0 ↔ succeeded
  three : status = 3 ↔ lost
  one : ¬ succeeded → ¬ lost → status = 1

theorem tells_conclude {result : Except Failure Record} {calls : List Call} {site : Site} {o : Operation}
    {p : Plan} {nodes : List Node} (h : Recounts site o p nodes [] [] (result, calls))
    (event : Option String → Bool → Audit.Report) (message : String) :
    Tells (Session.conclude s w event message result).2.status (result.isOk = true)
      (Unanswered site.executor calls) := by
  have hlost := h.unanswered_iff
  cases result with
  | ok record =>
    have hstatus : (Session.conclude s w event message (.ok record)).2.status = 0 := rfl
    rw [hstatus]
    exact ⟨by simp [Except.isOk, Except.toBool], by simp [hlost], fun h => absurd rfl h⟩
  | error f =>
    have hstatus : (Session.conclude s w event message (.error f)).2.status =
        if f.trouble.isChannel then 3 else 1 := rfl
    rw [hstatus]
    constructor
    · split <;> simp [Except.isOk, Except.toBool]
    · split <;> simp_all
    · simp_all

theorem Operated.tells {succeeded : Bool} {calls : List Call} (h : Operated s w r succeeded calls) :
    Tells (Session.answer s w r).2.status (succeeded = true)
      (r.action.isRead = false ∧ LostNode (settingsOf s w r).ssh s.behaviour w.calls calls) := by
  rw [lostNode_iff]
  cases h with
  | @build policy words d top result succeeded calls action document topology ended outcome =>
    have hrecounts := build_recounts (Session.siteOf s w (settingsOf s w r) top) d
      (Session.targetOf (settingsOf s w r) words) []
    rw [ended] at hrecounts
    have htells := tells_conclude (s := s) (w := Session.withCalls w (settingsOf s w r) calls) hrecounts
    simp only [answer_build action, Session.build, document, topology, ended, action, Action.isRead,
      true_and, ← outcome]
    exact htells _ _
  | @scrub words top result succeeded calls action topology ended outcome =>
    have hrecounts := scrub_recounts (Session.siteOf s w (settingsOf s w r) top)
      (Session.targetOf (settingsOf s w r) words) []
    rw [ended] at hrecounts
    have htells := tells_conclude (s := s) (w := Session.withCalls w (settingsOf s w r) calls) hrecounts
    simp only [answer_scrub action, Session.scrub, topology, ended, action, Action.isRead,
      true_and, ← outcome]
    exact htells _ _
  | @read words difference top survey succeeded calls action topology ended outcome =>
    simp only [answer_read action, Session.read, topology, ended, action, Action.isRead]
    cases succeeded <;> constructor <;> simp [outcome]

theorem Operated.failed_of_lostNode {succeeded : Bool} {calls : List Call}
    (h : Operated s w r succeeded calls)
    (hlost : LostNode (settingsOf s w r).ssh s.behaviour w.calls calls) : succeeded = false := by
  cases hread : r.action.isRead with
  | false =>
    have hthree := h.tells.three.2 ⟨hread, hlost⟩
    cases succeeded with
    | false => rfl
    | true =>
      rw [h.tells.zero.2 rfl] at hthree
      cases hthree
  | true =>
    cases h with
    | build action => simp [action, Action.isRead] at hread
    | scrub action => simp [action, Action.isRead] at hread
    | @read _ _ _ _ _ _ action topology ended outcome =>
      rw [← outcome]
      exact read_of_unanswered ended (lostNode_iff.1 hlost)

/-- The status is 0 just if the operation has succeeded on both nodes. It is 3 just if a build or a scrub has
failed and lost a node on its way: a read has this status never, whatever it lost. -/
theorem status_of_run {words : List String} (hread : Request.read words = .ok r)
    (hnodes : r.action.onNodes = true) :
    Tells (Session.run s w words).2.status (∃ calls, Operated s w r true calls)
      (r.action.isRead = false ∧ ∃ calls, Operated s w r false calls ∧
        LostNode (settingsOf s w r).ssh s.behaviour w.calls calls) := by
  have hrun : Session.run s w words = Session.answer s w r := by
    rw [Session.run, hread]
  rw [hrun]
  by_cases hoperated : ∃ succeeded calls, Operated s w r succeeded calls
  · obtain ⟨succeeded, calls, h⟩ := hoperated
    have htells := h.tells
    have hzero : (∃ calls', Operated s w r true calls') ↔ succeeded = true := by
      constructor
      · rintro ⟨calls', h'⟩
        exact (h.unique h').1
      · rintro rfl
        exact ⟨calls, h⟩
    have hthree : (∃ calls', Operated s w r false calls' ∧
        LostNode (settingsOf s w r).ssh s.behaviour w.calls calls') ↔
        succeeded = false ∧ LostNode (settingsOf s w r).ssh s.behaviour w.calls calls := by
      constructor
      · rintro ⟨calls', h', hlost⟩
        obtain ⟨rfl, rfl⟩ := h.unique h'
        exact ⟨rfl, hlost⟩
      · rintro ⟨rfl, hlost⟩
        exact ⟨calls, h, hlost⟩
    rw [hzero, hthree, and_iff_right_of_imp h.failed_of_lostNode]
    exact htells
  · obtain ⟨e, he, hanswer⟩ := answer_of_not_operated hnodes hoperated
    have hstatus : (Session.answer s w r).2.status = 1 := by
      rw [hanswer]
      exact he
    have hnone : ∀ succeeded calls, ¬ Operated s w r succeeded calls :=
      fun succeeded calls h => hoperated ⟨succeeded, calls, h⟩
    rw [hstatus]
    simp only [hnone, exists_false, false_and, and_false]
    exact ⟨by decide, by decide, fun _ _ => rfl⟩

def deadSurroundings : Surroundings where
  settingsDirectory := "/data"
  logDirectory := "/state"
  behaviour := fun _ _ => .exited 255 [] []
  now := ⟨⟨2026, 1, 1⟩, 0, 0, 0⟩
  run := 0

def deadNodes : String :=
  "\x7b\"ipv6_subnet\": \"2a02:2078:3::/48\", \"podnet_a_enabled\": true, \"podnet_b_enabled\": false\x7d"

/-- A world with a topology file, in which no node can be reached. -/
def deadWorld : World where
  files := { entries := [(["nodes.json"], .file (Text.Utf8.encode deadNodes))] }

def deadTopology : Topology := ⟨"/nodes.json", "2a02:2078:3::10:0:2", "2a02:2078:3::10:0:3"⟩

theorem load_deadWorld : Topology.load deadWorld.files "/nodes.json" = .ok deadTopology :=
  toOption_eq_some.1 (by decide +kernel)

def deadRequest (action : Action) : Request := ⟨none, some "/nodes.json", action⟩

theorem topologyOf_dead (action : Action) (settings : Settings) :
    Session.topologyOf deadWorld (deadRequest action) settings = .ok deadTopology := by
  have hload : Session.topologyOf deadWorld (deadRequest action) settings =
      (Topology.load deadWorld.files "/nodes.json").mapError .topology := rfl
  rw [hload, load_deadWorld]
  rfl

/-- Whatever comes to its operation there fails and has lost a node. -/
theorem lost_of_operated_dead {succeeded : Bool} {calls : List Call}
    (h : Operated deadSurroundings deadWorld r succeeded calls) :
    Operated deadSurroundings deadWorld r false calls ∧
      LostNode (settingsOf deadSurroundings deadWorld r).ssh deadSurroundings.behaviour deadWorld.calls
        calls := by
  -- the first call is enough, as the behaviour does not reach any node
  obtain ⟨c, later, hcalls⟩ := List.exists_cons_of_ne_nil h.ne_nil
  have hlost : LostNode (settingsOf deadSurroundings deadWorld r).ssh deadSurroundings.behaviour
      deadWorld.calls calls := by
    refine ⟨[], c, later, hcalls, ?_⟩
    rw [Program.start]
    split
    · exact Eq.refl Ssh.unreached
    · trivial
  obtain rfl := h.failed_of_lostNode hlost
  exact ⟨h, hlost⟩

def deadTarget : TargetWords := ⟨"ns1100", "fw", none⟩

def deadScrub : Request := deadRequest (.scrub deadTarget)

def deadRead : Request := deadRequest (.read deadTarget false)

/-- A scrub tells that the first node was not reached. -/
theorem status_of_run_dead : Request.read ["scrub", "ns1100", "fw", "-t", "/nodes.json"] = .ok deadScrub ∧
    deadScrub.action.onNodes = true ∧
    (Session.run deadSurroundings deadWorld ["scrub", "ns1100", "fw", "-t", "/nodes.json"]).2.status = 3 := by
  have hread : Request.read ["scrub", "ns1100", "fw", "-t", "/nodes.json"] = .ok deadScrub :=
    toOption_eq_some.1 (by decide +kernel)
  obtain ⟨hoperated, hlost⟩ := lost_of_operated_dead (r := deadScrub)
    (.scrub rfl (topologyOf_dead _ _) (Prod.eta _).symm rfl)
  exact ⟨hread, rfl, (status_of_run hread rfl).three.2 ⟨rfl, _, hoperated, hlost⟩⟩

/-- A read of the same nodes has lost both, and its status is that of any other failure. -/
theorem read_hides_lost_node : ∃ calls,
    Request.read ["read", "ns1100", "fw", "-t", "/nodes.json"] = .ok deadRead ∧
    Operated deadSurroundings deadWorld deadRead false calls ∧
    LostNode (settingsOf deadSurroundings deadWorld deadRead).ssh deadSurroundings.behaviour
      deadWorld.calls calls ∧
    (Session.run deadSurroundings deadWorld ["read", "ns1100", "fw", "-t", "/nodes.json"]).2.status = 1 := by
  have hread : Request.read ["read", "ns1100", "fw", "-t", "/nodes.json"] = .ok deadRead :=
    toOption_eq_some.1 (by decide +kernel)
  have hrun : Session.run deadSurroundings deadWorld ["read", "ns1100", "fw", "-t", "/nodes.json"] =
      Session.answer deadSurroundings deadWorld deadRead := by
    rw [Session.run, hread]
  obtain ⟨hoperated, hlost⟩ := lost_of_operated_dead (r := deadRead)
    (.read rfl (topologyOf_dead _ _) (Prod.eta _).symm rfl)
  refine ⟨_, hread, hoperated, hlost, ?_⟩
  rw [hrun]
  exact hoperated.tells.one (by decide) fun h => absurd h.1 (by decide)

end Cli
end TwinWall
