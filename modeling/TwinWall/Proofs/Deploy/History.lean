import TwinWall.Proofs.Deploy.Course

/-! The record of an operation against the calls it made. Whatever the executor answers, there is one
entry for each call but the one that failed, and a failure tells of that one. -/
namespace TwinWall
namespace Deploy

open Remote

/-- Each entry has the output that was given to its call, after the calls of the entries before. -/
def Recorded (e : Executor) (p : Plan) : List Call → Record → Prop
  | _, [] => True
  | calls, d :: r => e calls (d.call p) = .ok d.output ∧ Recorded e p (calls ++ [d.call p]) r

theorem recorded_append {e : Executor} {p : Plan} {calls : List Call} {r r' : Record} :
    Recorded e p calls (r ++ r') ↔
      Recorded e p calls r ∧ Recorded e p (calls ++ r.map (Done.call p)) r' := by
  induction r generalizing calls with
  | nil => simp [Recorded]
  | cons d r ih => simp [Recorded, ih, and_assoc]

/-- What an outcome with its calls has to say, when a record was there before. -/
def Recounts (s : Site) (o : Operation) (p : Plan) (nodes : List Node) (seed : Record)
    (calls : List Call) : Except Failure Record × List Call → Prop
  | (.ok r, after) =>
    ∃ done : Record, r = seed ++ done ∧ (∀ d ∈ done, d.node ∈ nodes) ∧
      Recorded s.executor p calls done ∧ after = calls ++ done.map (Done.call p)
  | (.error f, after) =>
    ∃ done : Record, f.done = seed ++ done ∧ (∀ d ∈ done, d.node ∈ nodes) ∧
      Recorded s.executor p calls done ∧
      after = calls ++ done.map (Done.call p) ++ [p.call f.node f.step] ∧
      s.executor (calls ++ done.map (Done.call p)) (p.call f.node f.step) = f.trouble.reply ∧
      f.trouble.Stops f.step ∧ f.node ∈ nodes ∧ f.operation = o ∧ f.source = s.topology.source

section
variable {e : Executor} {o : Operation} {p : Plan} {n : Node} {step : Step} {loaded : Bool}
  {calls : List Call} {done : Record} {stop : Option Stop}

theorem Course.recorded (h : Course e o p n step loaded calls done stop) :
    Recorded e p calls done := by
  induction h with
  | stopped => trivial
  | last asked => exact ⟨asked, trivial⟩
  | next asked _ _ _ ih => exact ⟨asked, ih⟩

theorem Course.node_eq (h : Course e o p n step loaded calls done stop) :
    ∀ d ∈ done, d.node = n := by
  induction h with
  | stopped => simp
  | last => simp
  | next _ _ _ _ ih => simpa using ih

theorem Course.stop_reply {x : Stop} (h : Course e o p n step loaded calls done (some x)) :
    e (calls ++ done.map (Done.call p)) (p.call n x.step) = x.trouble.reply ∧
      x.trouble.Stops x.step := by
  generalize hs : some x = stop at h
  induction h with
  | stopped asked stops =>
    cases hs
    exact ⟨by simpa using asked, stops⟩
  | last => cases hs
  | next _ _ _ _ ih => simpa [Done.call, Plan.call] using ih hs

end

theorem runOn_recounts (s : Site) (o : Operation) (p : Plan) (n : Node) (calls : List Call)
    (seed : Record) : Recounts s o p [n] seed calls (s.runOn o p n calls seed) := by
  obtain ⟨done, stop, hc, hs⟩ := stepsFrom_course s o n p o.first false calls seed
  have hn : ∀ d ∈ done, d.node ∈ [n] := by simpa using hc.node_eq
  rw [Site.runOn, hs]
  cases stop with
  | none => exact ⟨done, rfl, hn, hc.recorded, by simp [Stop.calls]⟩
  | some x =>
    obtain ⟨asked, stops⟩ := hc.stop_reply
    exact ⟨done, rfl, hn, hc.recorded, by simp [Stop.calls, Site.failure], asked, stops,
      by simp [Site.failure], rfl, rfl⟩

/-- A run that goes on from another one recounts both. -/
theorem Recounts.after {s : Site} {o : Operation} {p : Plan} {nodes nodes' : List Node}
    {seed r : Record} {calls calls' : List Call} {result : Except Failure Record × List Call}
    (first : Recounts s o p nodes seed calls (.ok r, calls'))
    (second : Recounts s o p nodes' r calls' result) :
    Recounts s o p (nodes ++ nodes') seed calls result := by
  obtain ⟨done, rfl, hn, hr, rfl⟩ := first
  obtain ⟨outcome, after⟩ := result
  have hboth (done' : Record) (hn' : ∀ d ∈ done', d.node ∈ nodes') :
      ∀ d ∈ done ++ done', d.node ∈ nodes ++ nodes' := by
    intro d hd
    rcases List.mem_append.1 hd with hd | hd
    · exact List.mem_append_left _ (hn d hd)
    · exact List.mem_append_right _ (hn' d hd)
  cases outcome with
  | ok r' =>
    obtain ⟨done', rfl, hn', hr', rfl⟩ := second
    exact ⟨done ++ done', by simp, hboth done' hn', recorded_append.2 ⟨hr, hr'⟩, by simp⟩
  | error f =>
    obtain ⟨done', hf, hn', hr', rfl, asked, stops, hnode, ho, hsource⟩ := second
    refine ⟨done ++ done', by simp [hf], hboth done' hn', recorded_append.2 ⟨hr, hr'⟩, by simp, ?_,
      stops, List.mem_append_right _ hnode, ho, hsource⟩
    simpa using asked

/-- A failure on the disabled node comes after a whole run on the enabled one, and tells its record. -/
theorem runOnBoth_recounts (s : Site) (o : Operation) (p : Plan) (calls : List Call) :
    Recounts s o p s.topology.nodes [] calls (s.runOnBoth o p calls) ∧
      ∀ f after, s.runOnBoth o p calls = (.error f, after) → f.node = s.topology.disabled →
        ∃ r before, s.runOn o p s.topology.enabled calls [] = (.ok r, before) ∧ r <+: f.done := by
  have first := runOn_recounts s o p s.topology.enabled calls []
  cases h : s.runOn o p s.topology.enabled calls [] with
  | mk outcome calls' =>
    rw [h] at first
    cases outcome with
    | error f =>
      obtain ⟨done, hf, hn, hr, hcalls, asked, stops, hnode, ho⟩ := first
      have hnode : f.node = s.topology.enabled := by simpa using hnode
      have hrun : s.runOnBoth o p calls = (.error f, calls') := by simp [Site.runOnBoth, h]
      rw [hrun]
      refine ⟨⟨done, hf, ?_, hr, hcalls, asked, stops, by simp [hnode, Topology.nodes], ho⟩, ?_⟩
      · intro d hd
        simpa [Topology.nodes] using Or.inl (hn d hd)
      · rintro f' after hf' hdisabled
        cases hf'
        exact absurd (hnode.symm.trans hdisabled) s.topology.enabled_ne_disabled
    | ok r =>
      have second := runOn_recounts s o p s.topology.disabled calls' r
      have hrun : s.runOnBoth o p calls = s.runOn o p s.topology.disabled calls' r := by
        simp [Site.runOnBoth, h]
      refine ⟨?_, ?_⟩
      · rw [hrun]
        exact first.after second
      · intro f after hf _
        rw [← hrun, hf] at second
        obtain ⟨done, hdone, _⟩ := second
        exact ⟨r, calls', rfl, done, hdone.symm⟩

/-- Every entry stands for one call, in the order of calls, and a failure for the call after them. -/
theorem record_of_calls (s : Site) (d : Document) (t : Policy.Target) (calls : List Call) :
    (∀ n seed, Recounts s .build (s.plan t d.text) [n] seed calls (s.deploy d t n calls seed)) ∧
      Recounts s .build (s.plan t d.text) s.topology.nodes [] calls (s.build d t calls) ∧
      Recounts s .scrub (s.plan t "") s.topology.nodes [] calls (s.scrub t calls) ∧
      (∀ f after, s.build d t calls = (.error f, after) → f.node = s.topology.disabled →
        ∃ r before, s.deploy d t s.topology.enabled calls [] = (.ok r, before) ∧ r <+: f.done) ∧
      (∀ f after, s.scrub t calls = (.error f, after) → f.node = s.topology.disabled →
        ∃ r before, s.runOn .scrub (s.plan t "") s.topology.enabled calls [] = (.ok r, before) ∧
          r <+: f.done) := by
  obtain ⟨hbuild, hbuilt⟩ := runOnBoth_recounts s .build (s.plan t d.text) calls
  obtain ⟨hscrub, hscrubbed⟩ := runOnBoth_recounts s .scrub (s.plan t "") calls
  exact ⟨fun n seed => runOn_recounts s .build _ n calls seed, hbuild, hscrub, hbuilt, hscrubbed⟩

end Deploy
end TwinWall
