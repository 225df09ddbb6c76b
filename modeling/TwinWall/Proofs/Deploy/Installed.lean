import TwinWall.Proofs.Deploy.Effects

/-! A build that succeeds installs its document on both nodes and leaves everything else as it was, whatever
was there before. -/
namespace TwinWall
namespace Deploy

open Policy Remote Shell

section Calls

variable {faults : Faults} {w : World} {p : Plan} {n : Node} {step : Step} {calls : List Call}
  {out : Output}

/-- A reply that lets the operation go on is no failure. -/
theorem isFailure_of_succeeds (hp : p.Fit) (h : succeeds step out.exit = true) :
    isFailure (p.command step) (.ok out) = false := by
  rw [isFailure, Plan.isLookup_command hp]
  by_cases hstep : step = .lookingUp
  · subst hstep
    have hexit : out.exit = 0 ∨ out.exit = 1 := by simpa [succeeds] using h
    rcases hexit with hexit | hexit <;> simp [hexit]
  · have hexit : out.exit = 0 := by
      cases step <;> first | exact absurd rfl hstep | simpa [succeeds] using h
    simp [hexit]

/-- What a call that succeeded was answered, and how it left the nodes. -/
theorem answer_of_succeeds (hp : p.Fit) (asked : w.executor faults calls (p.call n step) = .ok out)
    (passed : succeeds step out.exit = true) :
    out = ((w.after faults calls n.host).perform (p.pipeline step)).2 ∧
      w.after faults (calls ++ [p.call n step]) = Function.update (w.after faults calls) n.host
        ((w.after faults calls n.host).perform (p.pipeline step)).1 := by
  have hnone : fault? faults calls (p.call n step) = none := by
    cases hfault : fault? faults calls (p.call n step) with
    | none => rfl
    | some r =>
      have hreply : r = .ok out := by simpa [World.executor, hfault] using asked
      have hfails := (Option.filter_eq_some_iff.1 hfault).2
      rw [hreply] at hfails
      exact absurd hfails (by simp [Plan.call, isFailure_of_succeeds hp passed])
  have hrespond := Plan.respond_command hp (w.after faults calls n.host) step
  refine ⟨?_, ?_⟩
  · have hout : (w.after faults calls n.host).respond (p.command step) =
        (w.after faults calls n.host).perform (p.pipeline step) := hrespond
    simp only [World.executor, hnone, Except.ok.injEq] at asked
    rw [← asked, ← hout]
    rfl
  · rw [World.after_append_singleton, World.step, hnone]
    simp only [Plan.call, hrespond]

/-- A call that succeeded leads to what follows on its step. -/
theorem reaches_of_succeeds (hp : p.Fit) {s : NodeState} {loaded : Bool} {follows : Option Step}
    (hat : Plan.At p s step (w.after faults calls n.host))
    (asked : w.executor faults calls (p.call n step) = .ok out) (passed : succeeds step out.exit = true)
    (hfollows : Operation.build.next? step (loadedAfter loaded step out.exit) = follows) :
    p.Reaches s (w.after faults (calls ++ [p.call n step]) n.host) follows := by
  obtain ⟨hout, hafter⟩ := answer_of_succeeds hp asked passed
  obtain ⟨-, hreaches⟩ := hat.perform hp loaded
  rw [← hout, hfollows] at hreaches
  rw [hafter, Function.update_self]
  exact hreaches

/-- Only a failure stops a build, and it changes nothing. -/
theorem after_of_stops (hp : p.Fit) {s : NodeState} {t : Trouble}
    (hat : Plan.At p s step (w.after faults calls n.host))
    (asked : w.executor faults calls (p.call n step) = t.reply) (stops : t.Stops step) :
    (fault? faults calls (p.call n step)).isSome = true ∧
      w.after faults (calls ++ [p.call n step]) = w.after faults calls := by
  cases hfault : fault? faults calls (p.call n step) with
  | some r =>
    refine ⟨rfl, ?_⟩
    rw [World.after_append_singleton, World.step, hfault]
  | none =>
    have hrespond := Plan.respond_command hp (w.after faults calls n.host) step
    have hreply : t.reply = .ok ((w.after faults calls n.host).perform (p.pipeline step)).2 := by
      rw [← asked, World.executor, hfault]
      exact congrArg (fun x => Except.ok x.2) hrespond
    cases t with
    | channel f => cases hreply
    | payload out =>
      cases hreply
      rw [Trouble.Stops, (hat.perform hp false).1] at stops
      cases stops

/-- A course leads from the state of its first step to the one in which the build leaves the node. -/
theorem Course.leads (hp : p.Fit) {loaded : Bool} {done : Record} {stop : Option Stop} {s : NodeState}
    (h : Course (w.executor faults) .build p n step loaded calls done stop)
    (hat : Plan.At p s step (w.after faults calls n.host)) :
    w.after faults (calls ++ done.map (Done.call p) ++ Stop.calls p n stop) =
      Function.update (w.after faults calls) n.host (p.left s stop) := by
  induction h with
  | @stopped step loaded calls t asked stops =>
    have hafter := (after_of_stops hp hat asked stops).2
    have hcalls : calls ++ [].map (Done.call p) ++ Stop.calls p n (some ⟨step, t⟩) =
        calls ++ [p.call n step] := by
      simp [Stop.calls]
    have hleft : p.left s (some ⟨step, t⟩) = w.after faults calls n.host := hat.eq.symm
    rw [hcalls, hafter, hleft, Function.update_eq_self]
  | @last step loaded calls out asked passed ends =>
    obtain ⟨-, hafter⟩ := answer_of_succeeds hp asked passed
    have hlast : w.after faults (calls ++ [p.call n step]) n.host = p.installed s :=
      reaches_of_succeeds hp hat asked passed ends
    rw [hafter, Function.update_self] at hlast
    have hcalls : calls ++ [⟨n, step, out⟩].map (Done.call p) ++ Stop.calls p n none =
        calls ++ [p.call n step] := by
      simp [Stop.calls, Done.call]
    rw [hcalls, hafter, hlast]
    rfl
  | @next step follower loaded calls out done stop asked passed goes rest ih =>
    obtain ⟨-, hafter⟩ := answer_of_succeeds hp asked passed
    have ih := ih (reaches_of_succeeds hp hat asked passed goes)
    rw [hafter, Function.update_idem] at ih
    have hcalls : calls ++ (⟨n, step, out⟩ :: done).map (Done.call p) ++ Stop.calls p n stop =
        calls ++ [p.call n step] ++ done.map (Done.call p) ++ Stop.calls p n stop := by
      simp [Done.call, Plan.call]
    rw [hcalls, ih]

theorem at_first (p : Plan) (s : NodeState) : Plan.At p s .writing s := ⟨rfl, nofun, nofun⟩

theorem runOn_leads (hp : p.Fit) {topology : Topology} {directory : String} {seed : Record}
    {outcome : Except Failure Record} {after : List Call}
    (h : (w.site faults topology directory).runOn .build p n calls seed = (outcome, after)) :
    ∃ stop, (∀ r, outcome = .ok r → stop = none) ∧ w.after faults after =
      Function.update (w.after faults calls) n.host (p.left (w.after faults calls n.host) stop) := by
  obtain ⟨done, stop, hc, hs⟩ :=
    stepsFrom_course (w.site faults topology directory) .build n p .writing false calls seed
  have hrun := hs.symm.trans h
  have hafter : calls ++ done.map (Done.call p) ++ Stop.calls p n stop = after :=
    congrArg Prod.snd hrun
  refine ⟨stop, fun r hr => ?_, ?_⟩
  · cases stop with
    | none => rfl
    | some x =>
      rw [hr] at hrun
      cases hrun
  · rw [← hafter]
    exact hc.leads hp (at_first p _)

/-- Without failures a course never stops. -/
theorem Course.not_stopped (hp : p.Fit) (hf : ∀ calls call, fault? faults calls call = none)
    {loaded : Bool} {done : Record} {stop : Option Stop} {s : NodeState}
    (h : Course (w.executor faults) .build p n step loaded calls done stop)
    (hat : Plan.At p s step (w.after faults calls n.host)) : stop = none := by
  induction h with
  | stopped asked stops =>
    have hfault := (after_of_stops hp hat asked stops).1
    rw [hf] at hfault
    cases hfault
  | last => rfl
  | @next step follower loaded calls out done stop asked passed goes rest ih =>
    exact ih (reaches_of_succeeds hp hat asked passed goes)

theorem runOn_succeeds (hp : p.Fit) (hf : ∀ calls call, fault? faults calls call = none)
    (topology : Topology) (directory : String) (n : Node) (calls : List Call) (seed : Record) :
    ∃ r after, (w.site faults topology directory).runOn .build p n calls seed = (.ok r, after) := by
  obtain ⟨done, stop, hc, hs⟩ :=
    stepsFrom_course (w.site faults topology directory) .build n p .writing false calls seed
  obtain rfl := hc.not_stopped hp hf (at_first p _)
  exact ⟨_, _, hs⟩

end Calls

section Both

variable {faults : Faults} {w : World} {topology : Topology} {directory : String} {p : Plan}
  {calls after : List Call} {outcome : Except Failure Record}

theorem runOn_kept (hp : p.Fit) {n : Node} {seed : Record}
    (h : (w.site faults topology directory).runOn .build p n calls seed = (outcome, after))
    (host : String) : Kept p (w.after faults calls host) (w.after faults after host) := by
  obtain ⟨stop, -, hafter⟩ := runOn_leads hp h
  rw [hafter]
  by_cases hhost : host = n.host
  · rw [hhost, Function.update_self]
    exact Kept.left p _ stop
  · rw [Function.update_of_ne hhost]
    exact Kept.refl p _

theorem runOn_installs (hp : p.Fit) {n : Node} {seed r : Record}
    (h : (w.site faults topology directory).runOn .build p n calls seed = (.ok r, after)) :
    w.after faults after = Function.update (w.after faults calls) n.host
      (p.installed (w.after faults calls n.host)) := by
  obtain ⟨stop, hstop, hafter⟩ := runOn_leads hp h
  rw [hafter, hstop r rfl]
  rfl

/-- Whatever comes of a build, it keeps to one table and one file of every host. -/
theorem runOnBoth_kept (hp : p.Fit)
    (h : (w.site faults topology directory).runOnBoth .build p calls = (outcome, after))
    (host : String) : Kept p (w.after faults calls host) (w.after faults after host) := by
  rw [Site.runOnBoth] at h
  split at h
  · rename_i f middle hfirst
    obtain rfl : middle = after := congrArg Prod.snd h
    exact runOn_kept hp hfirst host
  · rename_i r middle hfirst
    exact (runOn_kept hp hfirst host).trans (runOn_kept hp h host)

theorem runOnBoth_installs (hp : p.Fit) {r : Record}
    (h : (w.site faults topology directory).runOnBoth .build p calls = (.ok r, after)) :
    (∀ n ∈ topology.nodes,
      Installed p (w.after faults calls n.host) (w.after faults after n.host)) ∧
      ∀ host, (∀ n ∈ topology.nodes, n.host ≠ host) →
        w.after faults after host = w.after faults calls host := by
  rw [Site.runOnBoth] at h
  split at h
  · cases h
  · rename_i r₁ middle hfirst
    have hkept := runOn_kept hp hfirst
    have hfirst : w.after faults middle = Function.update (w.after faults calls)
        topology.enabled.host (p.installed (w.after faults calls topology.enabled.host)) :=
      runOn_installs hp hfirst
    have hsecond : w.after faults after = Function.update (w.after faults middle)
        topology.disabled.host (p.installed (w.after faults middle topology.disabled.host)) :=
      runOn_installs hp h
    have hdisabled : Installed p (w.after faults calls topology.disabled.host)
        (w.after faults after topology.disabled.host) := by
      rw [hsecond, Function.update_self]
      exact (Installed.installed p _).of_kept (hkept _)
    have henabled : Installed p (w.after faults calls topology.enabled.host)
        (w.after faults after topology.enabled.host) := by
      by_cases heq : topology.enabled.host = topology.disabled.host
      · rw [heq]
        exact hdisabled
      · rw [hsecond, Function.update_of_ne heq, hfirst, Function.update_self]
        exact Installed.installed p _
    refine ⟨fun n hn => ?_, fun host hhost => ?_⟩
    · rcases List.mem_cons.1 hn with rfl | hn
      · exact henabled
      · rw [List.mem_singleton.1 hn]
        exact hdisabled
    · have henabled := hhost topology.enabled (by simp [Topology.nodes])
      have hdisabled := hhost topology.disabled (by simp [Topology.nodes])
      rw [hsecond, Function.update_of_ne hdisabled.symm, hfirst, Function.update_of_ne henabled.symm]

theorem runOnBoth_succeeds (hp : p.Fit) (hf : ∀ calls call, fault? faults calls call = none)
    (w : World) (topology : Topology) (directory : String) (calls : List Call) :
    ∃ r after, (w.site faults topology directory).runOnBoth .build p calls = (.ok r, after) := by
  obtain ⟨r, middle, hfirst⟩ :=
    runOn_succeeds (w := w) hp hf topology directory topology.enabled calls []
  obtain ⟨r', after, hsecond⟩ :=
    runOn_succeeds (w := w) hp hf topology directory topology.disabled middle r
  refine ⟨r', after, ?_⟩
  have hfirst : (w.site faults topology directory).runOn .build p
      (w.site faults topology directory).topology.enabled calls [] = (.ok r, middle) := hfirst
  rw [Site.runOnBoth, hfirst]
  exact hsecond

/-- A build that succeeds installs its document on both nodes and nothing else, whatever the nodes held.
However an earlier build for the same target ended, it leaves no trace; and to build a document again
changes nothing. -/
theorem build_installs {spec : Spec} {t : Target} {d : Document} (hd : Document.build spec t = .ok d)
    {r : Record} (h : (w.site faults topology directory).build d t calls = (.ok r, after)) :
    (∀ n ∈ topology.nodes, Installed ⟨t, directory, d.text⟩
      (w.after faults calls n.host) (w.after faults after n.host)) ∧
    (∀ host, (∀ n ∈ topology.nodes, n.host ≠ host) →
      w.after faults after host = w.after faults calls host) ∧
    (∀ (spec₀ : Spec) (d₀ : Document) (before : List Call) (outcome : Except Failure Record),
      Document.build spec₀ t = .ok d₀ →
      (w.site faults topology directory).build d₀ t before = (outcome, calls) →
      ∀ n ∈ topology.nodes, Installed ⟨t, directory, d.text⟩
        (w.after faults before n.host) (w.after faults after n.host)) ∧
    ∀ (before : List Call) (r₀ : Record),
      (w.site faults topology directory).build d t before = (.ok r₀, calls) →
      w.after faults after = w.after faults calls := by
  obtain ⟨p, hbuilt⟩ := Document.built_of_build hd
  have hfit : Plan.Fit ⟨t, directory, d.text⟩ := fit_of_built hbuilt directory
  obtain ⟨hnodes, hothers⟩ := runOnBoth_installs hfit h
  refine ⟨hnodes, hothers, fun spec₀ d₀ before outcome hd₀ h₀ n hn => ?_, fun before r₀ h₀ => ?_⟩
  · obtain ⟨p₀, hbuilt₀⟩ := Document.built_of_build hd₀
    have hkept : Kept ⟨t, directory, d₀.text⟩ (w.after faults before n.host)
        (w.after faults calls n.host) :=
      runOnBoth_kept (fit_of_built hbuilt₀ directory) h₀ n.host
    have hkey : (Plan.mk t directory d₀.text).key = (Plan.mk t directory d.text).key := rfl
    have hpath : (Plan.mk t directory d₀.text).path = (Plan.mk t directory d.text).path := rfl
    exact (hnodes n hn).of_kept (hkept.congr hkey hpath)
  · obtain ⟨hfirst, -⟩ := runOnBoth_installs hfit h₀
    funext host
    by_cases hhost : ∀ n ∈ topology.nodes, n.host ≠ host
    · exact hothers host hhost
    · push Not at hhost
      obtain ⟨n, hn, rfl⟩ := hhost
      exact (hfirst n hn).again (hnodes n hn)

end Both

/-- Nodes with an older table in the place of the one that is to be built, and with another beside it. -/
def usedNodes : World := fun _ =>
  { files := fun path => if path = "/tmp/notes" then some "keep\n" else none
    tables := fun key =>
      if key = ("shop", "edge") then some "table inet edge \x7b\n\x7d\n"
      else if key = ("shop", "nat") then some "table inet nat \x7b\n\x7d\n"
      else none }

theorem build_installs_web : ∃ d r middle r' after,
    Document.build Document.webSpec Document.webTarget = .ok d ∧
    (usedNodes.site (fun _ _ => none) ⟨"", "west", "east"⟩ "/tmp").build d Document.webTarget [] =
      (.ok r, middle) ∧
    (usedNodes.site (fun _ _ => none) ⟨"", "west", "east"⟩ "/tmp").build d Document.webTarget middle =
      (.ok r', after) ∧
    (∀ n ∈ [Node.mk "west" .enabled, Node.mk "east" .disabled],
      Installed ⟨Document.webTarget, "/tmp", d.text⟩ (usedNodes n.host)
        (usedNodes.after (fun _ _ => none) after n.host)) ∧
    usedNodes.after (fun _ _ => none) after = usedNodes.after (fun _ _ => none) middle := by
  obtain ⟨d, hd⟩ := Document.exists_webDocument
  obtain ⟨p, hbuilt⟩ := Document.built_of_build hd
  have hf : ∀ calls call, fault? (fun _ _ => none) calls call = none := fun _ _ => rfl
  have hruns := runOnBoth_succeeds (fit_of_built hbuilt "/tmp") hf usedNodes ⟨"", "west", "east"⟩ "/tmp"
  obtain ⟨r, middle, hfirst⟩ := hruns []
  obtain ⟨r', after, hsecond⟩ := hruns middle
  obtain ⟨-, -, hnodes, hsame⟩ := build_installs hd hsecond
  exact ⟨d, r, middle, r', after, hd, hfirst, hsecond, hnodes _ d [] _ hd hfirst,
    hsame [] r hfirst⟩

end Deploy
end TwinWall
