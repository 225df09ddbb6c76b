import TwinWall.Proofs.Deploy.Course

/-! The order of the calls of an operation, whatever the executor answers to them. A node is taken along
a route that depends on its own lookup only, and the disabled node comes after the whole route of the
enabled one. -/
namespace TwinWall
namespace Deploy

open Remote

/-- The steps of an operation on one node, by whether the lookup finds a table there. -/
def Operation.route (found : Bool) : Operation → List Step
  | build =>
    [.writing, .checking, .lookingUp] ++ (if found then [.flushing] else []) ++
      [.applying, .cleaning]
  | scrub => .lookingUp :: (if found then [.flushing] else [])
  | read => [.listing]

/-- The part of the route that starts with a step. -/
def Operation.routeFrom (o : Operation) (found : Bool) (step : Step) : List Step :=
  (o.route found).dropWhile (· ≠ step)

theorem routeFrom_first (o : Operation) (found : Bool) :
    o.routeFrom found o.first = o.route found := by
  cases o <;> cases found <;> decide

theorem first_mem_route (o : Operation) (found : Bool) : o.first ∈ o.route found := by
  cases o <;> cases found <;> decide

theorem routeFrom_next {o : Operation} {found : Bool} {step follower : Step}
    (hm : step ∈ o.route found) (h : o.next? step found = some follower) :
    follower ∈ o.route found ∧ o.routeFrom found step = step :: o.routeFrom found follower := by
  revert hm h
  cases o <;> cases found <;> cases step <;> cases follower <;> decide

theorem routeFrom_last {o : Operation} {found : Bool} {step : Step}
    (hm : step ∈ o.route found) (h : o.next? step found = none) :
    o.routeFrom found step = [step] := by
  revert hm h
  cases o <;> cases found <;> cases step <;> decide

theorem routeFrom_eq_cons {o : Operation} {found : Bool} {step : Step}
    (hm : step ∈ o.route found) : ∃ r, o.routeFrom found step = step :: r := by
  cases h : o.next? step found with
  | none => exact ⟨[], routeFrom_last hm h⟩
  | some follower => exact ⟨_, (routeFrom_next hm h).2⟩

/-- Only a lookup tells whether to flush. -/
theorem next?_of_ne_lookingUp (o : Operation) {step : Step} (h : step ≠ .lookingUp)
    (loaded loaded' : Bool) : o.next? step loaded = o.next? step loaded' := by
  revert h
  cases o <;> cases step <;> cases loaded <;> cases loaded' <;> decide

/-- A step that was asked of a node, and what came back. -/
structure Exchange where
  node : Node
  step : Step
  reply : Reply

namespace Exchange

def call (p : Plan) (x : Exchange) : Call := p.call x.node x.step

def exit? (x : Exchange) : Option Int :=
  match x.reply with
  | .ok out => some out.exit
  | .error _ => none

/-- The node has exited with zero, or has found no table and exited with one. -/
def Succeeded (x : Exchange) : Prop := x.exit? = some 0 ∨ x.step = .lookingUp ∧ x.exit? = some 1

end Exchange

def Done.exchange (d : Done) : Exchange := ⟨d.node, d.step, .ok d.output⟩

def Stop.exchange (n : Node) (x : Stop) : Exchange := ⟨n, x.step, x.trouble.reply⟩

def exchanges (n : Node) (done : Record) (stop : Option Stop) : List Exchange :=
  done.map Done.exchange ++ (stop.map (Stop.exchange n)).toList

/-- Each reply is the one that the executor gave, after all calls before. -/
def Answered (e : Executor) (p : Plan) : List Call → List Exchange → Prop
  | _, [] => True
  | calls, x :: r => e calls (x.call p) = x.reply ∧ Answered e p (calls ++ [x.call p]) r

/-- A lookup that found the table. -/
def Exchange.finds (x : Exchange) : Bool := x.step = .lookingUp ∧ x.exit? = some 0

def found (xs : List Exchange) : Bool := xs.any Exchange.finds

/-- Exchanges with one node, along the route that its lookup gives. -/
structure Leg (o : Operation) (n : Node) (xs : List Exchange) : Prop where
  node_eq : ∀ x ∈ xs, x.node = n
  along : xs.map Exchange.step <+: o.route (found xs)
  flushed : .flushing ∈ xs.map Exchange.step ↔ found xs = true

/-- The whole route, without a failure. -/
def Whole (o : Operation) (xs : List Exchange) : Prop :=
  xs.map Exchange.step = o.route (found xs) ∧ ∀ x ∈ xs, x.Succeeded

/-- What an outcome with its calls is like, when these fall into those of the enabled node and those of
the disabled one. -/
structure Ordered (s : Site) (o : Operation) (p : Plan) (calls : List Call)
    (result : Except Failure Record × List Call) (a b : List Exchange) : Prop where
  calls_eq : result.2 = calls ++ (a ++ b).map (Exchange.call p)
  answered : Answered s.executor p calls (a ++ b)
  enabled : Leg o s.topology.enabled a
  disabled : Leg o s.topology.disabled b
  succeeded : ∀ x ∈ (a ++ b).dropLast, x.Succeeded
  handed : b ≠ [] → Whole o a
  whole : ∀ r, result.1 = .ok r → Whole o a ∧ Whole o b

theorem answered_append {e : Executor} {p : Plan} {calls : List Call} {xs ys : List Exchange} :
    Answered e p calls (xs ++ ys) ↔
      Answered e p calls xs ∧ Answered e p (calls ++ xs.map (Exchange.call p)) ys := by
  induction xs generalizing calls with
  | nil => simp [Answered]
  | cons x xs ih => simp [Answered, ih, and_assoc]

theorem next?_loadedAfter (o : Operation) {step : Step} {exit : Int} {f : Bool} (loaded : Bool)
    (hf : step = .lookingUp → (f = true ↔ some exit = some 0)) :
    o.next? step (loadedAfter loaded step exit) = o.next? step f := by
  by_cases hs : step = .lookingUp
  · have hf : f = decide (exit = 0) := by
      have := hf hs
      by_cases h0 : exit = 0 <;> simp_all
    rw [hs, hf]
    rfl
  · exact next?_of_ne_lookingUp o hs _ _

theorem next?_found {o : Operation} (ho : o ≠ .read) (loaded : Bool) :
    o.next? .lookingUp (loadedAfter loaded .lookingUp 0) = some .flushing := by
  cases o with
  | build => rfl
  | scrub => rfl
  | read => exact absurd rfl ho

section
variable {e : Executor} {o : Operation} {p : Plan} {n : Node} {step : Step} {loaded : Bool}
  {calls : List Call} {done : Record} {stop : Option Stop}

theorem exchanges_calls (p : Plan) (n : Node) (done : Record) (stop : Option Stop) :
    (exchanges n done stop).map (Exchange.call p) = done.map (Done.call p) ++ Stop.calls p n stop := by
  cases stop <;> simp [exchanges, Stop.calls, Done.exchange, Stop.exchange, Exchange.call, Done.call]

theorem Course.answered (h : Course e o p n step loaded calls done stop) :
    Answered e p calls (exchanges n done stop) := by
  induction h with
  | stopped asked => exact ⟨asked, trivial⟩
  | last asked => exact ⟨asked, trivial⟩
  | next asked _ _ _ ih => exact ⟨asked, ih⟩

theorem Course.exchange_node (h : Course e o p n step loaded calls done stop) :
    ∀ x ∈ exchanges n done stop, x.node = n := by
  induction h with
  | stopped => simp [exchanges, Stop.exchange]
  | last => simp [exchanges, Done.exchange]
  | next _ _ _ _ ih => simpa [exchanges, Done.exchange] using ih

theorem succeeds_iff {exit : Int} :
    succeeds step exit = true ↔ exit = 0 ∨ step = .lookingUp ∧ exit = 1 := by
  cases step <;> simp [succeeds]

theorem Course.done_succeeded (h : Course e o p n step loaded calls done stop) :
    ∀ x ∈ done.map Done.exchange, x.Succeeded := by
  induction h with
  | stopped => simp
  | last _ passed =>
    simpa [Done.exchange, Exchange.Succeeded, Exchange.exit?] using succeeds_iff.1 passed
  | next _ passed _ _ ih =>
    intro x hx
    rcases List.mem_cons.1 hx with rfl | hx
    · simpa [Done.exchange, Exchange.Succeeded, Exchange.exit?] using succeeds_iff.1 passed
    · exact ih x hx

theorem Course.head (h : Course e o p n step loaded calls done stop) :
    ∃ x r, exchanges n done stop = x :: r ∧ x.step = step := by
  cases h with
  | stopped => exact ⟨_, [], rfl, rfl⟩
  | last => exact ⟨_, [], rfl, rfl⟩
  | next => exact ⟨_, _, rfl, rfl⟩

theorem Course.later_le (h : Course e o p n step loaded calls done stop) :
    ∀ x ∈ exchanges n done stop, x.step.later ≤ step.later := by
  induction h with
  | stopped => simp [exchanges, Stop.exchange]
  | last => simp [exchanges, Done.exchange]
  | next _ _ goes _ ih =>
    intro x hx
    rcases List.mem_cons.1 hx with rfl | hx
    · exact Nat.le_refl _
    · exact Nat.le_trans (ih x hx) (Nat.le_of_lt (Operation.later_lt_of_next? goes))

/-- A node is asked for its table once at most. -/
theorem Course.lookup_unique (h : Course e o p n step loaded calls done stop) {x y : Exchange}
    (hx : x ∈ exchanges n done stop) (hy : y ∈ exchanges n done stop)
    (hxs : x.step = .lookingUp) (hys : y.step = .lookingUp) : x = y := by
  induction h with
  | stopped => simp_all [exchanges]
  | last => simp_all [exchanges]
  | next _ _ goes rest ih =>
    have hlt := Operation.later_lt_of_next? goes
    rcases List.mem_cons.1 hx with rfl | hx <;> rcases List.mem_cons.1 hy with rfl | hy
    · rfl
    · have := rest.later_le y hy
      rw [hys] at this
      simp only [Done.exchange] at hxs
      subst hxs
      omega
    · have := rest.later_le x hx
      rw [hxs] at this
      simp only [Done.exchange] at hys
      subst hys
      omega
    · exact ih hx hy

/-- The lookup of a course decides whether it counts as one that found the table. -/
theorem Course.found_iff (h : Course e o p n step loaded calls done stop) {x : Exchange}
    (hx : x ∈ exchanges n done stop) (hxs : x.step = .lookingUp) :
    found (exchanges n done stop) = true ↔ x.exit? = some 0 := by
  constructor
  · intro hf
    obtain ⟨y, hy, hfinds⟩ := List.any_eq_true.1 hf
    have hfinds : y.step = .lookingUp ∧ y.exit? = some 0 := by simpa [Exchange.finds] using hfinds
    rw [h.lookup_unique hx hy hxs hfinds.1]
    exact hfinds.2
  · intro hx0
    exact List.any_eq_true.2 ⟨x, hx, by simp [Exchange.finds, hxs, hx0]⟩

/-- A course goes along the route of what its lookup found, and to the end of it unless it stops. -/
theorem Course.along (h : Course e o p n step loaded calls done stop) {f : Bool}
    (hm : step ∈ o.route f)
    (hf : ∀ x ∈ exchanges n done stop, x.step = .lookingUp → (f = true ↔ x.exit? = some 0)) :
    (exchanges n done stop).map Exchange.step <+: o.routeFrom f step ∧
      (stop = none → (exchanges n done stop).map Exchange.step = o.routeFrom f step) := by
  induction h with
  | @stopped step =>
    obtain ⟨r, hr⟩ := routeFrom_eq_cons hm
    exact ⟨⟨r, by rw [hr]; rfl⟩, by simp⟩
  | @last step loaded calls out asked passed ends =>
    have hends := (next?_loadedAfter o loaded (hf _ List.mem_cons_self)).symm.trans ends
    rw [routeFrom_last hm hends]
    exact ⟨List.prefix_rfl, fun _ => rfl⟩
  | @next step follower loaded calls out done stop asked passed goes rest ih =>
    have hgoes := (next?_loadedAfter o loaded (hf _ List.mem_cons_self)).symm.trans goes
    obtain ⟨hm', hr⟩ := routeFrom_next hm hgoes
    obtain ⟨hpre, hwhole⟩ := ih hm' fun x hx => hf x (List.mem_cons_of_mem _ hx)
    rw [hr]
    exact ⟨(List.prefix_cons_inj step).2 hpre, fun hs => congrArg (step :: ·) (hwhole hs)⟩

/-- Once a lookup finds the table, the next step is to flush. -/
theorem Course.flushes (h : Course e o p n step loaded calls done stop) (ho : o ≠ .read)
    (hf : found (exchanges n done stop) = true) :
    .flushing ∈ (exchanges n done stop).map Exchange.step := by
  induction h with
  | @stopped step loaded calls t _ stops =>
    have hx : step = .lookingUp ∧ (Stop.exchange n ⟨step, t⟩).exit? = some 0 := by
      simpa [found, exchanges, Exchange.finds, Stop.exchange] using hf
    obtain ⟨rfl, h0⟩ := hx
    cases t with
    | channel => simp [Stop.exchange, Exchange.exit?, Trouble.reply] at h0
    | payload out =>
      have h0 : out.exit = 0 := by simpa [Stop.exchange, Exchange.exit?, Trouble.reply] using h0
      simp [Trouble.Stops, succeeds, h0] at stops
  | @last step loaded calls out _ _ ends =>
    have hx : step = .lookingUp ∧ out.exit = 0 := by
      simpa [found, exchanges, Exchange.finds, Done.exchange, Exchange.exit?] using hf
    obtain ⟨rfl, h0⟩ := hx
    rw [h0, next?_found ho loaded] at ends
    cases ends
  | @next step follower loaded calls out done stop _ _ goes rest ih =>
    have hx : (step = .lookingUp ∧ out.exit = 0) ∨ found (exchanges n done stop) = true := by
      simpa [found, exchanges, Exchange.finds, Done.exchange, Exchange.exit?] using hf
    rcases hx with ⟨rfl, h0⟩ | hx
    · rw [h0, next?_found ho loaded] at goes
      cases goes
      obtain ⟨x, r, hr, hx⟩ := rest.head
      have hhead : .flushing ∈ (exchanges n done stop).map Exchange.step := by
        rw [hr]
        simp [hx]
      exact List.mem_cons_of_mem _ hhead
    · exact List.mem_cons_of_mem _ (ih hx)

theorem Course.leg (h : Course e o p n o.first loaded calls done stop) (ho : o ≠ .read) :
    Leg o n (exchanges n done stop) := by
  have hm := first_mem_route o (found (exchanges n done stop))
  obtain ⟨halong, -⟩ := h.along hm fun x hx hs => h.found_iff hx hs
  rw [routeFrom_first] at halong
  refine ⟨h.exchange_node, halong, fun hfl => ?_, h.flushes ho⟩
  cases hf : found (exchanges n done stop) with
  | true => rfl
  | false =>
    have := halong.subset hfl
    rw [hf] at this
    revert this
    cases o <;> decide

theorem Course.whole (h : Course e o p n o.first loaded calls done none) :
    Whole o (exchanges n done none) := by
  have hm := first_mem_route o (found (exchanges n done none))
  obtain ⟨-, halong⟩ := h.along hm fun x hx hs => h.found_iff hx hs
  rw [routeFrom_first] at halong
  refine ⟨halong rfl, ?_⟩
  simpa [exchanges] using h.done_succeeded

theorem Course.dropLast_succeeded (h : Course e o p n step loaded calls done stop) :
    ∀ x ∈ (exchanges n done stop).dropLast, x.Succeeded := by
  intro x hx
  cases stop with
  | none =>
    refine h.done_succeeded x ?_
    simpa [exchanges] using List.dropLast_subset _ hx
  | some y => exact h.done_succeeded x (by simpa [exchanges] using hx)

end

/-- A run on one node, as exchanges. -/
theorem runOn_leg (s : Site) {o : Operation} (ho : o ≠ .read) (p : Plan) (n : Node)
    (calls : List Call) (seed : Record) :
    ∃ xs, (s.runOn o p n calls seed).2 = calls ++ xs.map (Exchange.call p) ∧
      Answered s.executor p calls xs ∧ Leg o n xs ∧ (∀ x ∈ xs.dropLast, x.Succeeded) ∧
      ∀ r, (s.runOn o p n calls seed).1 = .ok r → Whole o xs := by
  obtain ⟨done, stop, hc, hs⟩ := stepsFrom_course s o n p o.first false calls seed
  rw [Site.runOn, hs]
  refine ⟨exchanges n done stop, ?_, hc.answered, hc.leg ho, hc.dropLast_succeeded, ?_⟩
  · simp [exchanges_calls]
  · intro r hr
    cases stop with
    | none => exact hc.whole
    | some x => cases hr

theorem leg_nil (o : Operation) (n : Node) : Leg o n [] :=
  ⟨by simp, List.nil_prefix, by simp [found]⟩

theorem runOnBoth_ordered (s : Site) {o : Operation} (ho : o ≠ .read) (p : Plan)
    (calls : List Call) : ∃ a b, Ordered s o p calls (s.runOnBoth o p calls) a b := by
  obtain ⟨a, hcalls, hans, hleg, hlast, hwhole⟩ := runOn_leg s ho p s.topology.enabled calls []
  cases h : s.runOn o p s.topology.enabled calls [] with
  | mk outcome calls' =>
    rw [h] at hcalls hwhole
    cases outcome with
    | error f =>
      have hrun : s.runOnBoth o p calls = (.error f, calls') := by simp [Site.runOnBoth, h]
      refine ⟨a, [], ?_⟩
      rw [hrun]
      exact
        { calls_eq := by simpa using hcalls
          answered := by simpa using hans
          enabled := hleg
          disabled := leg_nil o _
          succeeded := by simpa using hlast
          handed := by simp
          whole := by simp }
    | ok r =>
      have hrun : s.runOnBoth o p calls = s.runOn o p s.topology.disabled calls' r := by
        simp [Site.runOnBoth, h]
      obtain ⟨b, hcalls', hans', hleg', hlast', hwhole'⟩ :=
        runOn_leg s ho p s.topology.disabled calls' r
      have hcalls : calls' = calls ++ a.map (Exchange.call p) := hcalls
      have ha := hwhole r rfl
      refine ⟨a, b, ?_⟩
      rw [hrun]
      exact
        { calls_eq := by
            rw [hcalls', hcalls]
            simp
          answered := answered_append.2 ⟨hans, hcalls ▸ hans'⟩
          enabled := hleg
          disabled := hleg'
          succeeded := by
            intro x hx
            by_cases hb : b = []
            · subst hb
              exact ha.2 x (List.dropLast_subset _ (by simpa using hx))
            · rw [List.dropLast_append_of_ne_nil hb] at hx
              rcases List.mem_append.1 hx with hx | hx
              · exact ha.2 x hx
              · exact hlast' x hx
          handed := fun _ => ha
          whole := fun r' hr' => ⟨ha, hwhole' r' hr'⟩ }

theorem Plan.command_injective (p : Plan) : Function.Injective p.command := by
  intro s s' h
  have h := congrArg String.toList h
  cases s <;> cases s' <;> first
    | rfl
    | simp [Plan.command, Plan.nft] at h

theorem Exchange.succeeded_iff {x : Exchange} (hx : x.step ≠ .lookingUp) :
    x.Succeeded ↔ x.exit? = some 0 := by
  simp [Exchange.Succeeded, hx]

/-- Before the table of a node is deleted or the document loaded there, the node has found no fault with
the staged document. -/
theorem Leg.checked {n : Node} {before after : List Exchange} {x : Exchange}
    (h : Leg .build n (before ++ x :: after)) (hs : ∀ y ∈ before, y.Succeeded)
    (hx : x.step = .flushing ∨ x.step = .applying) :
    ∃ y ∈ before, y.node = x.node ∧ y.step = .checking ∧ y.exit? = some 0 := by
  have hnode : x.node = n := h.node_eq x (by simp)
  have halong := h.along
  simp only [Operation.route, List.map_append, List.map_cons, List.cons_append] at halong
  match before with
  | [] =>
    have hx' : x.step = .writing := (List.cons_prefix_cons.1 halong).1
    simp [hx'] at hx
  | [y] =>
    have hx' : x.step = .checking := (List.cons_prefix_cons.1 (List.cons_prefix_cons.1 halong).2).1
    simp [hx'] at hx
  | y :: z :: r =>
    have hz : z.step = .checking := (List.cons_prefix_cons.1 (List.cons_prefix_cons.1 halong).2).1
    have hs : z.Succeeded := hs z (by simp)
    refine ⟨z, by simp, ?_, hz, (Exchange.succeeded_iff (by simp [hz])).1 hs⟩
    rw [hnode]
    exact h.node_eq z (by simp)

/-- Deletions and loads come after a check of what is staged on the same node. -/
def CheckedFirst (p : Plan) (xs : List Exchange) : Prop :=
  ∀ before x after, xs = before ++ x :: after →
    (x.call p).command = p.command .flushing ∨ (x.call p).command = p.command .applying →
    ∃ y ∈ before, y.node = x.node ∧ (y.call p).command = p.command .checking ∧ y.exit? = some 0

theorem Ordered.checkedFirst {s : Site} {p : Plan} {calls : List Call}
    {result : Except Failure Record × List Call} {a b : List Exchange}
    (h : Ordered s .build p calls result a b) : CheckedFirst p (a ++ b) := by
  intro before x after hab hx
  have hx : x.step = .flushing ∨ x.step = .applying := by
    rcases hx with hx | hx
    · exact Or.inl (p.command_injective hx)
    · exact Or.inr (p.command_injective hx)
  have hs : ∀ y ∈ before, y.Succeeded := by
    intro y hy
    refine h.succeeded y ?_
    rw [hab, List.dropLast_append_of_ne_nil (by simp)]
    exact List.mem_append_left _ hy
  have hfirst : ∃ y ∈ before, y.node = x.node ∧ y.step = .checking ∧ y.exit? = some 0 := by
    rcases List.append_eq_append_iff.1 hab with ⟨c, rfl, rfl⟩ | ⟨c, rfl, hc⟩
    · obtain ⟨y, hy, hr⟩ := h.disabled.checked (fun y hy => hs y (by simp [hy])) hx
      exact ⟨y, List.mem_append_right _ hy, hr⟩
    · cases c with
      | nil =>
        obtain rfl : b = x :: after := by simpa using hc.symm
        have hleg : Leg .build s.topology.disabled ([] ++ x :: after) := h.disabled
        obtain ⟨y, hy, -⟩ := hleg.checked (by simp) hx
        cases hy
      | cons z c =>
        obtain ⟨rfl, -⟩ : x = z ∧ after = c ++ b := by simpa using hc
        exact h.enabled.checked hs hx
  obtain ⟨y, hy, hnode, hstep, hexit⟩ := hfirst
  exact ⟨y, hy, hnode, by simp [Exchange.call, Plan.call, hstep], hexit⟩

/-- The commands that a node gets in any build that succeeds. -/
def buildSteps : List Step := [.writing, .checking, .lookingUp, .applying, .cleaning]

def commands (p : Plan) (xs : List Exchange) : List String := xs.map fun x => (x.call p).command

theorem Whole.commands_eq {p : Plan} {xs : List Exchange} (h : Whole .build xs) :
    commands p (xs.filter (·.step ≠ .flushing)) = buildSteps.map p.command := by
  have hsteps : (xs.filter (·.step ≠ .flushing)).map Exchange.step = buildSteps := by
    have := congrArg (List.filter (· ≠ Step.flushing)) h.1
    rw [List.filter_map] at this
    refine Eq.trans this ?_
    cases found xs <;> decide
  rw [← hsteps]
  simp [commands, Exchange.call, Plan.call]

theorem Whole.cleaned {xs : List Exchange} (h : Whole .build xs) :
    ∃ x ∈ xs, x.step = .cleaning ∧ x.exit? = some 0 := by
  have hmem : .cleaning ∈ xs.map Exchange.step := by
    rw [h.1]
    cases found xs <;> decide
  obtain ⟨x, hx, hstep⟩ := List.mem_map.1 hmem
  exact ⟨x, hx, hstep, (Exchange.succeeded_iff (by simp [hstep])).1 (h.2 x hx)⟩

/-- Builds and scrubs keep to their order whatever the executor answers. A build touches no table before
the staged document has been checked on the node, and gives both nodes the same commands. -/
theorem calls_in_order (s : Site) (d : Document) (t : Policy.Target) (calls : List Call) :
    (∃ a b, Ordered s .build (s.plan t d.text) calls (s.build d t calls) a b ∧
      (b ≠ [] → ∃ x ∈ a, x.step = .cleaning ∧ x.exit? = some 0) ∧
      CheckedFirst (s.plan t d.text) (a ++ b) ∧
      ∀ r, (s.build d t calls).1 = .ok r →
        ∀ xs ∈ [a, b], commands (s.plan t d.text) (xs.filter (·.step ≠ .flushing)) =
          buildSteps.map (s.plan t d.text).command) ∧
    ∃ a b, Ordered s .scrub (s.plan t "") calls (s.scrub t calls) a b := by
  constructor
  · obtain ⟨a, b, h⟩ := runOnBoth_ordered s (o := .build) (by decide) (s.plan t d.text) calls
    refine ⟨a, b, h, fun hb => (h.handed hb).cleaned, h.checkedFirst, fun r hr xs hxs => ?_⟩
    obtain ⟨ha, hb⟩ := h.whole r hr
    have hxs : xs = a ∨ xs = b := by simpa using hxs
    have hw : Whole .build xs := by
      rcases hxs with rfl | rfl
      · exact ha
      · exact hb
    exact hw.commands_eq
  · exact runOnBoth_ordered s (by decide) (s.plan t "") calls

end Deploy
end TwinWall
