import TwinWall.Deploy.Run

/-! The course of an operation on one node, told apart from the recursion that takes it: the steps that
succeeded, the one that did not, and the replies to their calls. -/
namespace TwinWall
namespace Deploy

open Remote

def Plan.call (p : Plan) (n : Node) (step : Step) : Call := ⟨n, p.command step⟩

def Done.call (p : Plan) (d : Done) : Call := p.call d.node d.step

namespace Trouble

/-- The reply that the trouble comes from. -/
def reply : Trouble → Reply
  | channel f => .error f
  | payload o => .ok o

def Stops : Trouble → Step → Prop
  | channel _, _ => True
  | payload o, step => succeeds step o.exit = false

end Trouble

/-- The step at which a node stopped. -/
structure Stop where
  step : Step
  trouble : Trouble

/-- What happens on a node from a step on, after earlier calls: the steps that succeed, and the one
that stops the operation if there is one. -/
inductive Course (e : Executor) (o : Operation) (p : Plan) (n : Node) :
    Step → Bool → List Call → Record → Option Stop → Prop
  | stopped {step : Step} {loaded : Bool} {calls : List Call} {t : Trouble}
      (asked : e calls (p.call n step) = t.reply) (stops : t.Stops step) :
      Course e o p n step loaded calls [] (some ⟨step, t⟩)
  | last {step : Step} {loaded : Bool} {calls : List Call} {out : Output}
      (asked : e calls (p.call n step) = .ok out) (passed : succeeds step out.exit = true)
      (ends : o.next? step (loadedAfter loaded step out.exit) = none) :
      Course e o p n step loaded calls [⟨n, step, out⟩] none
  | next {step follower : Step} {loaded : Bool} {calls : List Call} {out : Output} {done : Record}
      {stop : Option Stop} (asked : e calls (p.call n step) = .ok out)
      (passed : succeeds step out.exit = true)
      (goes : o.next? step (loadedAfter loaded step out.exit) = some follower)
      (rest : Course e o p n follower (loadedAfter loaded step out.exit)
        (calls ++ [p.call n step]) done stop) :
      Course e o p n step loaded calls (⟨n, step, out⟩ :: done) stop

def Stop.calls (p : Plan) (n : Node) (stop : Option Stop) : List Call :=
  (stop.map fun x => p.call n x.step).toList

/-- The outcome on a node whose record is complete. -/
def Site.outcome (s : Site) (o : Operation) (n : Node) (r : Record) :
    Option Stop → Except Failure Record
  | none => .ok r
  | some x => .error (s.failure o n x.step x.trouble r)

/-- Every run on a node is a course, whose steps are added to the record. -/
theorem stepsFrom_course (s : Site) (o : Operation) (n : Node) (p : Plan) (step : Step)
    (loaded : Bool) (calls : List Call) (r : Record) :
    ∃ done stop, Course s.executor o p n step loaded calls done stop ∧
      s.stepsFrom o n p step loaded calls r =
        (s.outcome o n (r ++ done) stop, calls ++ done.map (Done.call p) ++ Stop.calls p n stop) := by
  fun_induction Site.stepsFrom s o n p step loaded calls r with
  | case1 step loaded calls r call calls' f asked =>
    refine ⟨[], some ⟨step, .channel f⟩, .stopped asked trivial, ?_⟩
    simp [Site.outcome, Stop.calls, Plan.call, calls', call]
  | case2 step loaded calls r call calls' out asked passed r' ends =>
    refine ⟨[⟨n, step, out⟩], none, .last asked passed ends, ?_⟩
    simp [Site.outcome, Stop.calls, Done.call, Plan.call, calls', call, r']
  | case3 step loaded calls r call calls' out asked passed r' follower goes ih =>
    obtain ⟨done, stop, hc, hs⟩ := ih
    refine ⟨⟨n, step, out⟩ :: done, stop, .next asked passed goes hc, ?_⟩
    rw [hs]
    simp [Done.call, Plan.call, calls', call, r']
  | case4 step loaded calls r call calls' out asked refused =>
    refine ⟨[], some ⟨step, .payload out⟩, .stopped asked (by simpa [Trouble.Stops] using refused), ?_⟩
    simp [Site.outcome, Stop.calls, Plan.call, calls', call]

/-- A course is all that a run on its node can come to. -/
theorem Course.stepsFrom_eq {s : Site} {o : Operation} {n : Node} {p : Plan} {step : Step}
    {loaded : Bool} {calls : List Call} {done : Record} {stop : Option Stop}
    (h : Course s.executor o p n step loaded calls done stop) (r : Record) :
    s.stepsFrom o n p step loaded calls r =
      (s.outcome o n (r ++ done) stop, calls ++ done.map (Done.call p) ++ Stop.calls p n stop) := by
  induction h generalizing r with
  | @stopped step loaded calls t asked stops =>
    cases t with
    | channel f =>
      have asked : s.executor calls ⟨n, p.command step⟩ = .error f := asked
      rw [Site.stepsFrom, asked]
      simp [Site.outcome, Stop.calls, Plan.call]
    | payload out =>
      have asked : s.executor calls ⟨n, p.command step⟩ = .ok out := asked
      have stops : succeeds step out.exit = false := stops
      rw [Site.stepsFrom, asked]
      simp [stops, Site.outcome, Stop.calls, Plan.call]
  | @last step loaded calls out asked passed ends =>
    have asked : s.executor calls ⟨n, p.command step⟩ = .ok out := asked
    rw [Site.stepsFrom, asked]
    simp only [passed, if_true]
    split
    · simp [Site.outcome, Stop.calls, Done.call, Plan.call]
    · rename_i follower goes
      rw [ends] at goes
      cases goes
  | @next step follower loaded calls out done stop asked passed goes rest ih =>
    have asked : s.executor calls ⟨n, p.command step⟩ = .ok out := asked
    rw [Site.stepsFrom, asked]
    simp only [passed, if_true]
    split
    · rename_i ends
      rw [goes] at ends
      cases ends
    · rename_i follower' goes'
      obtain rfl : follower = follower' := Option.some.inj (goes.symm.trans goes')
      have ih := ih (r ++ [⟨n, step, out⟩])
      rw [Plan.call] at ih
      rw [ih]
      simp [Done.call, Plan.call]

end Deploy
end TwinWall
