import TwinWall.Proofs.Deploy.Installed
import TwinWall.Proofs.Deploy.Order

/-! A build that fails. Wherever it stops, the table of its target is the old one, none or the new one on
each node, also between any two of its calls, and no other table has changed. -/
namespace TwinWall
namespace Deploy

open Policy Remote

/-- The steps of a build that come before the first change of a table has been made. -/
def earlySteps : List Step := [.writing, .checking, .lookingUp, .flushing]

namespace Plan

/-- The table of the target when a build comes to a step on a node. -/
def tableAt (p : Plan) (s : NodeState) : Step → Option String
  | .applying => none
  | .cleaning => some p.document
  | _ => s.tables p.key

theorem tables_stateAt (p : Plan) (s : NodeState) (step : Step) :
    (p.stateAt s step).tables p.key = p.tableAt s step := by
  cases step with
  | applying => exact Function.update_self ..
  | cleaning => exact Function.update_self ..
  | _ => rfl

theorem tableAt_of_early (p : Plan) (s : NodeState) {step : Step} (h : step ∈ earlySteps) :
    p.tableAt s step = s.tables p.key := by
  revert h
  cases step <;> first | exact fun _ => rfl | exact fun h => absurd h (by decide)

/-- The table of the target is the one from before, or none, or the document alone. -/
def Unmixed (p : Plan) (before now : NodeState) : Prop :=
  now.tables p.key = before.tables p.key ∨ now.tables p.key = none ∨
    now.tables p.key = some p.document

namespace Unmixed

variable {p : Plan} {s t u : NodeState}

theorem refl (p : Plan) (s : NodeState) : p.Unmixed s s := Or.inl rfl

theorem trans (hst : p.Unmixed s t) (htu : p.Unmixed t u) : p.Unmixed s u := by
  rcases htu with h | h
  · rw [Unmixed, h]
    exact hst
  · exact Or.inr h

theorem stateAt (p : Plan) (s : NodeState) (step : Step) : p.Unmixed s (p.stateAt s step) := by
  rw [Unmixed, tables_stateAt]
  cases step with
  | applying => exact Or.inr (Or.inl rfl)
  | cleaning => exact Or.inr (Or.inr rfl)
  | _ => exact Or.inl rfl

theorem installed (p : Plan) (s : NodeState) : p.Unmixed s (p.installed s) :=
  Or.inr (Or.inr (Installed.installed p s).table)

end Unmixed
end Plan

/-- How a build that failed has left the nodes. -/
structure Interrupted (p : Plan) (topology : Topology) (f : Failure) (before after : World) : Prop where
  node : f.node ∈ topology.nodes
  step : f.step ∈ earlySteps ∨ f.step = .applying ∨ f.step = .cleaning
  others : ∀ host key, key ≠ p.key → (after host).tables key = (before host).tables key
  early : f.step ∈ earlySteps →
    (after f.node.host).tables p.key = (before f.node.host).tables p.key
  applying : f.step = .applying → (after f.node.host).tables p.key = none
  cleaning : f.step = .cleaning → (after f.node.host).tables p.key = some p.document
  waiting : f.node = topology.enabled →
    after topology.disabledHost = before topology.disabledHost
  served : f.node = topology.disabled →
    (after topology.enabledHost).tables p.key = some p.document

theorem mem_earlySteps_or {step : Step} (h : step ≠ .listing) :
    step ∈ earlySteps ∨ step = .applying ∨ step = .cleaning := by
  revert h
  cases step <;> decide

section Node

variable {faults : Faults} {w : World} {p : Plan} {n : Node} {step : Step} {calls : List Call}

theorem Course.stop_ne_listing {e : Executor} {loaded : Bool} {done : Record} {x : Stop}
    (h : Course e .build p n step loaded calls done (some x)) (hs : step ≠ .listing) :
    x.step ≠ .listing := by
  generalize hx : some x = stop at h
  induction h with
  | stopped =>
    cases hx
    exact hs
  | last => cases hx
  | @next step follower loaded calls out done stop asked passed goes rest ih =>
    refine ih ?_ hx
    rintro rfl
    revert goes
    cases step <;> cases loadedAfter loaded _ out.exit <;> decide

/-- Only a fault stops a course. -/
theorem Course.stop_fault (hp : p.Fit) {loaded : Bool} {done : Record} {x : Stop} {s : NodeState}
    (h : Course (w.executor faults) .build p n step loaded calls done (some x))
    (hat : Plan.At p s step (w.after faults calls n.host)) :
    ∃ before, (fault? faults before (p.call n x.step)).isSome = true := by
  generalize hx : some x = stop at h
  induction h with
  | stopped asked stops =>
    cases hx
    exact ⟨_, (after_of_stops hp hat asked stops).1⟩
  | last => cases hx
  | next asked passed goes _ ih => exact ih (reaches_of_succeeds hp hat asked passed goes) hx

/-- A failure tells in which state the build leaves its node. -/
theorem runOn_stops (hp : p.Fit) {topology : Topology} {directory : String} {seed : Record}
    {f : Failure} {after : List Call}
    (h : (w.site faults topology directory).runOn .build p n calls seed = (.error f, after)) :
    f.node = n ∧ f.step ≠ .listing ∧
      (∃ before, (fault? faults before (p.call n f.step)).isSome = true) ∧
      w.after faults after =
        Function.update (w.after faults calls) n.host (p.stateAt (w.after faults calls n.host) f.step) := by
  obtain ⟨done, stop, hc, hs⟩ :=
    stepsFrom_course (w.site faults topology directory) .build n p .writing false calls seed
  have hrun := hs.symm.trans h
  cases stop with
  | none => cases hrun
  | some x =>
    have hleads := hc.leads hp (at_first p _)
    cases hrun
    exact ⟨rfl, hc.stop_ne_listing (by decide), hc.stop_fault hp (at_first p _), hleads⟩

theorem at_moment {s : NodeState} (hat : Plan.At p s step (w.after faults calls n.host)) :
    ∃ now, w.after faults calls = Function.update (w.after faults calls) n.host now ∧
      p.Unmixed s now :=
  ⟨p.stateAt s step, by rw [← hat.eq, Function.update_eq_self], .stateAt p s step⟩

/-- Between any two calls of a course the target's table on its node is unmixed, and the other nodes are
as they were. -/
theorem Course.midway (hp : p.Fit) {loaded : Bool} {done : Record} {stop : Option Stop}
    {s : NodeState} (h : Course (w.executor faults) .build p n step loaded calls done stop)
    (hat : Plan.At p s step (w.after faults calls n.host)) {m : List Call}
    (hm : m <+: done.map (Done.call p) ++ Stop.calls p n stop) :
    ∃ now, w.after faults (calls ++ m) = Function.update (w.after faults calls) n.host now ∧
      p.Unmixed s now := by
  induction h generalizing m with
  | @stopped step loaded calls t asked stops =>
    have hm : m <+: [p.call n step] := by simpa [Stop.calls] using hm
    rcases List.prefix_cons_iff.1 hm with rfl | ⟨m', rfl, hm'⟩
    · rw [List.append_nil]
      exact at_moment hat
    · rw [List.prefix_nil.1 hm', (after_of_stops hp hat asked stops).2]
      exact at_moment hat
  | @last step loaded calls out asked passed ends =>
    have hm : m <+: [p.call n step] := by simpa [Stop.calls, Done.call] using hm
    rcases List.prefix_cons_iff.1 hm with rfl | ⟨m', rfl, hm'⟩
    · rw [List.append_nil]
      exact at_moment hat
    · obtain ⟨-, hafter⟩ := answer_of_succeeds hp asked passed
      have hlast : w.after faults (calls ++ [p.call n step]) n.host = p.installed s :=
        reaches_of_succeeds hp hat asked passed ends
      rw [hafter, Function.update_self] at hlast
      rw [List.prefix_nil.1 hm', hafter]
      exact ⟨_, rfl, hlast ▸ Plan.Unmixed.installed p s⟩
  | @next step follower loaded calls out done stop asked passed goes rest ih =>
    have hm : m <+: p.call n step :: (done.map (Done.call p) ++ Stop.calls p n stop) := hm
    rcases List.prefix_cons_iff.1 hm with rfl | ⟨m', rfl, hm'⟩
    · rw [List.append_nil]
      exact at_moment hat
    · obtain ⟨-, hafter⟩ := answer_of_succeeds hp asked passed
      obtain ⟨now, hnow, hunmixed⟩ := ih (reaches_of_succeeds hp hat asked passed goes) hm'
      rw [hafter, Function.update_idem, List.append_assoc] at hnow
      exact ⟨now, hnow, hunmixed⟩

theorem runOn_midway (hp : p.Fit) {topology : Topology} {directory : String} {seed : Record}
    {outcome : Except Failure Record} {after m : List Call}
    (h : (w.site faults topology directory).runOn .build p n calls seed = (outcome, after))
    (hm : m <+: after) (hcalls : calls <+: m) (host : String) :
    p.Unmixed (w.after faults calls host) (w.after faults m host) := by
  obtain ⟨done, stop, hc, hs⟩ :=
    stepsFrom_course (w.site faults topology directory) .build n p .writing false calls seed
  have hafter : calls ++ done.map (Done.call p) ++ Stop.calls p n stop = after :=
    congrArg Prod.snd (hs.symm.trans h)
  obtain ⟨m, rfl⟩ := hcalls
  rw [← hafter, List.append_assoc, List.prefix_append_right_inj] at hm
  obtain ⟨now, hnow, hunmixed⟩ := hc.midway hp (at_first p _) hm
  rw [hnow]
  by_cases hhost : host = n.host
  · rw [hhost, Function.update_self]
    exact hunmixed
  · rw [Function.update_of_ne hhost]
    exact Plan.Unmixed.refl p _

theorem calls_prefix_of_runOn {s : Site} {o : Operation} {seed : Record}
    {outcome : Except Failure Record} {after : List Call}
    (h : s.runOn o p n calls seed = (outcome, after)) : calls <+: after := by
  obtain ⟨done, stop, -, hs⟩ := stepsFrom_course s o n p o.first false calls seed
  have hafter : calls ++ done.map (Done.call p) ++ Stop.calls p n stop = after :=
    congrArg Prod.snd (hs.symm.trans h)
  exact ⟨_, (List.append_assoc ..).symm.trans hafter⟩

end Node

section Both

variable {faults : Faults} {w : World} {topology : Topology} {directory : String} {p : Plan}
  {calls after : List Call} {outcome : Except Failure Record}

/-- Nodes at any moment of a build on both of them. -/
theorem runOnBoth_midway (hp : p.Fit)
    (h : (w.site faults topology directory).runOnBoth .build p calls = (outcome, after))
    {m : List Call} (hcalls : calls <+: m) (hm : m <+: after) (host : String) :
    p.Unmixed (w.after faults calls host) (w.after faults m host) := by
  rw [Site.runOnBoth] at h
  split at h
  · rename_i f middle hfirst
    obtain rfl : middle = after := congrArg Prod.snd h
    exact runOn_midway hp hfirst hm hcalls host
  · rename_i r middle hfirst
    have hmiddle : middle <+: after := calls_prefix_of_runOn h
    rcases List.prefix_or_prefix_of_prefix hm hmiddle with hm' | hm'
    · exact runOn_midway hp hfirst hm' hcalls host
    · have hwhole := runOn_midway hp hfirst List.prefix_rfl (calls_prefix_of_runOn hfirst) host
      exact hwhole.trans (runOn_midway hp h hm hm' host)

/-- What is told of the node of a failure follows from the table that it has come to. -/
theorem Interrupted.of_tableAt {f : Failure} {before now : World} (hnode : f.node ∈ topology.nodes)
    (hstep : f.step ≠ .listing)
    (hothers : ∀ host key, key ≠ p.key → (now host).tables key = (before host).tables key)
    (htable : (now f.node.host).tables p.key = p.tableAt (before f.node.host) f.step)
    (hwaiting : f.node = topology.enabled → now topology.disabledHost = before topology.disabledHost)
    (hserved : f.node = topology.disabled →
      (now topology.enabledHost).tables p.key = some p.document) :
    Interrupted p topology f before now where
  node := hnode
  step := mem_earlySteps_or hstep
  others := hothers
  early := fun hearly => htable.trans (Plan.tableAt_of_early p _ hearly)
  applying := fun h => by rw [htable, h]; rfl
  cleaning := fun h => by rw [htable, h]; rfl
  waiting := hwaiting
  served := hserved

/-- Only a fault makes a build fail. -/
theorem runOnBoth_fault (hp : p.Fit) {f : Failure}
    (h : (w.site faults topology directory).runOnBoth .build p calls = (.error f, after)) :
    ∃ before, (fault? faults before (p.call f.node f.step)).isSome = true := by
  rw [Site.runOnBoth] at h
  split at h
  · rename_i f' middle hfirst
    cases h
    obtain ⟨hnode, -, hfault, -⟩ := runOn_stops hp hfirst
    rwa [hnode]
  · obtain ⟨hnode, -, hfault, -⟩ := runOn_stops hp h
    rwa [hnode]

theorem runOnBoth_interrupted (hp : p.Fit) (hne : topology.enabledHost ≠ topology.disabledHost)
    {f : Failure}
    (h : (w.site faults topology directory).runOnBoth .build p calls = (.error f, after)) :
    Interrupted p topology f (w.after faults calls) (w.after faults after) := by
  have hothers : ∀ host key, key ≠ p.key →
      (w.after faults after host).tables key = (w.after faults calls host).tables key :=
    fun host => (runOnBoth_kept hp h host).tables
  rw [Site.runOnBoth] at h
  split at h
  · rename_i f' middle hfirst
    cases h
    obtain ⟨hnode, hstep, -, hafter⟩ := runOn_stops hp hfirst
    have hnode : f.node = topology.enabled := hnode
    refine .of_tableAt (by simp [hnode, Topology.nodes]) hstep hothers ?_ (fun _ => ?_) fun hd => ?_
    · rw [hafter, hnode]
      exact (congrArg (NodeState.tables · p.key) (Function.update_self ..)).trans
        (Plan.tables_stateAt p _ _)
    · rw [hafter]
      exact Function.update_of_ne hne.symm ..
    · exact absurd (hnode.symm.trans hd) topology.enabled_ne_disabled
  · rename_i r middle hfirst
    have hmiddle : w.after faults middle = Function.update (w.after faults calls)
        topology.enabledHost (p.installed (w.after faults calls topology.enabledHost)) :=
      runOn_installs hp hfirst
    obtain ⟨hnode, hstep, -, hafter⟩ := runOn_stops hp h
    have hnode : f.node = topology.disabled := hnode
    have hafter : w.after faults after = Function.update (w.after faults middle)
        topology.disabledHost (p.stateAt (w.after faults middle topology.disabledHost) f.step) := hafter
    refine .of_tableAt (by simp [hnode, Topology.nodes]) hstep hothers ?_ (fun he => ?_) fun _ => ?_
    · have hhost : f.node.host = topology.disabledHost := congrArg Node.host hnode
      rw [hafter, hhost, Function.update_self, Plan.tables_stateAt, hmiddle,
        Function.update_of_ne hne.symm]
    · exact absurd (he.symm.trans hnode) topology.enabled_ne_disabled
    · rw [hafter, Function.update_of_ne hne, hmiddle, Function.update_self]
      exact (Installed.installed p _).table

/-- A build that fails replaces no table before the document has passed its check, and leaves no node with
a mixture: what is left of the target's table is told by the step that failed, all other tables are as
before, and no moment of the build shows more than the old table, none, or the new one. -/
theorem interrupted_of_build {spec : Spec} {t : Target} {d : Document}
    (hd : Document.build spec t = .ok d) (hne : topology.enabledHost ≠ topology.disabledHost)
    {f : Failure}
    (h : (w.site faults topology directory).build d t calls = (.error f, after)) :
    Interrupted ⟨t, directory, d.text⟩ topology f (w.after faults calls) (w.after faults after) ∧
      ∀ m, calls <+: m → m <+: after → ∀ host, Plan.Unmixed ⟨t, directory, d.text⟩
        (w.after faults calls host) (w.after faults m host) := by
  obtain ⟨p, hbuilt⟩ := Document.built_of_build hd
  have hfit : Plan.Fit ⟨t, directory, d.text⟩ := fit_of_built hbuilt directory
  exact ⟨runOnBoth_interrupted hfit hne h, fun m hcalls hm => runOnBoth_midway hfit h hcalls hm⟩

end Both

/-- Nodes one of which is not reached by one call. -/
def cutting (call : Call) : Faults := fun _ other =>
  if other = call then some (.error ⟨call.node.host, some 255, "Connection reset"⟩) else none

theorem fault?_cutting (call other : Call) (before : List Call) :
    (fault? (cutting call) before other).isSome = true ↔ other = call := by
  by_cases h : other = call <;> simp [fault?, cutting, h, isFailure]

theorem executor_cutting (w : World) (call : Call) (before : List Call) :
    w.executor (cutting call) before call =
      .error ⟨call.node.host, some 255, "Connection reset"⟩ := by
  simp only [World.executor, fault?, cutting, if_true]
  rfl

theorem call_injective {p : Plan} {n n' : Node} {step step' : Step}
    (h : p.call n step = p.call n' step') : n = n' ∧ step = step' := by
  obtain ⟨hnode, hcommand⟩ := Call.mk.inj h
  exact ⟨hnode, p.command_injective hcommand⟩

theorem Answered.exists_of_mem {e : Executor} {p : Plan} {calls : List Call} {xs : List Exchange}
    (h : Answered e p calls xs) {x : Exchange} (hx : x ∈ xs) :
    ∃ before, e before (x.call p) = x.reply := by
  induction xs generalizing calls with
  | nil => cases hx
  | cons y ys ih =>
    rcases List.mem_cons.1 hx with rfl | hx
    · exact ⟨calls, h.1⟩
    · exact ih h.2 hx

/-- A build fails at the step of the enabled node that is cut. -/
theorem runOnBoth_cutting {p : Plan} (hp : p.Fit) (w : World) (topology : Topology) (directory : String)
    (calls : List Call) {step : Step} (hstep : step ∈ buildSteps) :
    ∃ f after, (w.site (cutting (p.call topology.enabled step)) topology directory).runOnBoth .build p
      calls = (.error f, after) ∧ f.node = topology.enabled ∧ f.step = step := by
  obtain ⟨a, b, hordered⟩ := runOnBoth_ordered
    (w.site (cutting (p.call topology.enabled step)) topology directory) (o := .build) (by decide) p calls
  cases hrun : (w.site (cutting (p.call topology.enabled step)) topology directory).runOnBoth .build p
      calls with
  | mk outcome after =>
    cases outcome with
    | error f =>
      obtain ⟨before, hfault⟩ := runOnBoth_fault hp hrun
      obtain ⟨hnode, hstep⟩ := call_injective ((fault?_cutting _ _ _).1 hfault)
      exact ⟨f, after, rfl, hnode, hstep⟩
    | ok r =>
      -- The step would be on the whole route of the enabled node, with an answer that it has not got.
      obtain ⟨hroute, hsucceeded⟩ := (hordered.whole r (by rw [hrun])).1
      have hmem : step ∈ a.map Exchange.step := by
        rw [hroute]
        revert hstep
        cases found a <;> cases step <;> decide
      obtain ⟨x, hx, rfl⟩ := List.mem_map.1 hmem
      have hnode : x.node = topology.enabled := hordered.enabled.node_eq x hx
      obtain ⟨before, hreply⟩ := (answered_append.1 hordered.answered).1.exists_of_mem hx
      have hcall : x.call p = p.call topology.enabled x.step := by rw [Exchange.call, hnode]
      rw [hcall] at hreply
      have hcut := (executor_cutting w (p.call topology.enabled x.step) before).symm.trans hreply
      have hsome := hsucceeded x hx
      simp [Exchange.Succeeded, Exchange.exit?, ← hcut] at hsome

/-- The enabled node has dropped its old table when the call that loads the new one does not reach it. -/
theorem interrupted_of_build_web : ∃ d f after faults,
    Document.build Document.webSpec Document.webTarget = .ok d ∧ "west" ≠ "east" ∧
    (usedNodes.site faults ⟨"", "west", "east"⟩ "/tmp").build d Document.webTarget [] =
      (.error f, after) ∧
    f.node = ⟨"west", .enabled⟩ ∧ f.step = .applying ∧
    (usedNodes "west").tables ("shop", "edge") = some "table inet edge \x7b\n\x7d\n" ∧
    (usedNodes.after faults after "west").tables ("shop", "edge") = none ∧
    (usedNodes.after faults after "west").tables ("shop", "nat") =
      some "table inet nat \x7b\n\x7d\n" ∧
    usedNodes.after faults after "east" = usedNodes "east" := by
  obtain ⟨d, hd⟩ := Document.exists_webDocument
  obtain ⟨p, hbuilt⟩ := Document.built_of_build hd
  have hfit : Plan.Fit ⟨Document.webTarget, "/tmp", d.text⟩ := fit_of_built hbuilt "/tmp"
  have hne : "west" ≠ "east" := by decide
  have happlying : Step.applying ∈ buildSteps := by decide
  obtain ⟨f, after, hrun, hnode, hstep⟩ := runOnBoth_cutting hfit usedNodes ⟨"", "west", "east"⟩ "/tmp"
    [] happlying
  obtain ⟨hleft, -⟩ := interrupted_of_build hd hne hrun
  have habsent := hleft.applying hstep
  rw [hnode] at habsent
  have hkey : ("shop", "nat") ≠ ("shop", "edge") := by decide
  have hothers := hleft.others "west" ("shop", "nat") hkey
  exact ⟨d, f, after, _, hd, hne, hrun, hnode, hstep, rfl, habsent, hothers.trans rfl,
    hleft.waiting hnode⟩

end Deploy
end TwinWall
