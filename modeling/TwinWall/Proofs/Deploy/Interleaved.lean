import TwinWall.Proofs.Deploy.Installed
import TwinWall.Proofs.Deploy.StagingPath

/-! Two builds whose commands one node takes in turns. Builds that share neither file nor table do not
notice each other; builds that share the file may load each other's document. -/
namespace TwinWall
namespace Deploy

open Policy Remote Shell

/-- A list that is made of two others, each of them in its order. -/
inductive Interleaved {α : Type} : List α → List α → List α → Prop
  | nil : Interleaved [] [] []
  | left {x : α} {xs ys zs : List α} (h : Interleaved xs ys zs) :
      Interleaved (x :: xs) ys (x :: zs)
  | right {y : α} {xs ys zs : List α} (h : Interleaved xs ys zs) :
      Interleaved xs (y :: ys) (y :: zs)

/-- A step that succeeded, and the plan it belongs to. -/
structure Turn where
  plan : Plan
  done : Done

def Turn.command (x : Turn) : String := x.plan.command x.done.step

/-- A node after the commands of turns. -/
def served (now : NodeState) (xs : List Turn) : NodeState :=
  xs.foldl (fun now x => (now.respond x.command).1) now

/-- What turns were given is what a node gives for their commands, one after the other. -/
def GivenBy : NodeState → List Turn → Prop
  | _, [] => True
  | now, x :: xs =>
    (now.respond x.command).2 = x.done.output ∧ GivenBy (now.respond x.command).1 xs

theorem givenBy_append {now : NodeState} {xs ys : List Turn} :
    GivenBy now (xs ++ ys) ↔ GivenBy now xs ∧ GivenBy (served now xs) ys := by
  induction xs generalizing now with
  | nil => simp [GivenBy, served]
  | cons x xs ih => simp only [List.cons_append, GivenBy, ih, served, List.foldl_cons, and_assoc]

/-- The turns of a build that succeeded on a host, whatever was before it and wherever its answers came
from. -/
def Ran (d : Document) (t : Target) (directory host : String) (xs : List Turn) : Prop :=
  ∃ (s : Site) (n : Node) (calls after : List Call) (seed r : Record),
    s.directory = directory ∧ n.host = host ∧ s.deploy d t n calls seed = (.ok (seed ++ r), after) ∧
      xs = r.map (Turn.mk ⟨t, directory, d.text⟩)

/-- A turn finds its own document where it was staged, and brings it into its own table. -/
structure LoadsOwn (now : NodeState) (x : Turn) : Prop where
  staged : now.files x.plan.path = some x.plan.document
  table : (now.respond x.command).1.tables x.plan.key = some x.plan.document

def AllLoadOwn (now : NodeState) (xs : List Turn) : Prop :=
  ∀ before x after, xs = before ++ x :: after → x.done.step = .applying →
    LoadsOwn (served now before) x

theorem allLoadOwn_nil (now : NodeState) : AllLoadOwn now [] := by
  intro before x after h
  simp at h

theorem allLoadOwn_cons {now : NodeState} {x : Turn} {xs : List Turn}
    (hx : x.done.step = .applying → LoadsOwn now x)
    (hxs : AllLoadOwn (now.respond x.command).1 xs) : AllLoadOwn now (x :: xs) := by
  intro before y after h hy
  cases before with
  | nil =>
    obtain ⟨rfl, rfl⟩ := List.cons.inj h
    exact hx hy
  | cons z before =>
    obtain ⟨rfl, rfl⟩ := List.cons.inj h
    exact hxs before y after rfl hy

/-- The turns of a plan from a step on, to the end of the build. -/
inductive Follows (p : Plan) : Option Step → Bool → List Turn → Prop
  | ended {loaded : Bool} : Follows p none loaded []
  | goes {n : Node} {step : Step} {loaded : Bool} {out : Output} {xs : List Turn}
      (rest : Follows p (Operation.build.next? step (loadedAfter loaded step out.exit))
        (loadedAfter loaded step out.exit) xs) :
      Follows p (some step) loaded (⟨p, ⟨n, step, out⟩⟩ :: xs)

theorem Course.follows {e : Executor} {p : Plan} {n : Node} {step : Step} {loaded : Bool}
    {calls : List Call} {done : Record} {stop : Option Stop}
    (h : Course e .build p n step loaded calls done stop) (hstop : stop = none) :
    Follows p (some step) loaded (done.map (Turn.mk p)) := by
  induction h with
  | stopped => cases hstop
  | @last step loaded calls out asked passed ends =>
    refine .goes ?_
    rw [ends]
    exact .ended
  | @next step follower loaded calls out done stop asked passed goes rest ih =>
    refine .goes ?_
    rw [goes]
    exact ih hstop

theorem Ran.follows {d : Document} {t : Target} {directory host : String} {xs : List Turn}
    (h : Ran d t directory host xs) : Follows ⟨t, directory, d.text⟩ (some .writing) false xs := by
  obtain ⟨s, n, calls, after, seed, r, rfl, rfl, hrun, rfl⟩ := h
  obtain ⟨done, stop, hc, hs⟩ :=
    stepsFrom_course s .build n ⟨t, s.directory, d.text⟩ .writing false calls seed
  have hrun := hs.symm.trans hrun
  cases stop with
  | some x => cases hrun
  | none =>
    have hdone : seed ++ done = seed ++ r := Except.ok.inj (congrArg Prod.fst hrun)
    rw [← List.append_cancel_left hdone]
    exact hc.follows rfl

/-- Plans that have neither their file nor their table in common. -/
structure Apart (p q : Plan) : Prop where
  path : p.path ≠ q.path
  key : p.key ≠ q.key

theorem Apart.symm {p q : Plan} (h : Apart p q) : Apart q p := ⟨h.path.symm, h.key.symm⟩

/-- Nodes that look the same to a plan. -/
structure Agree (p : Plan) (a b : NodeState) : Prop where
  file : a.files p.path = b.files p.path
  table : a.tables p.key = b.tables p.key

theorem Kept.agree {p q : Plan} {a b : NodeState} (h : Kept q a b) (hpq : Apart p q) : Agree p a b :=
  ⟨(h.files _ hpq.path).symm, (h.tables _ hpq.key).symm⟩

namespace Agree

variable {p : Plan} {a b c : NodeState}

theorem trans (hab : Agree p a b) (hbc : Agree p b c) : Agree p a c :=
  ⟨hab.file.trans hbc.file, hab.table.trans hbc.table⟩

theorem putFile (h : Agree p a b) (text : String) :
    Agree p (a.putFile p.path text) (b.putFile p.path text) :=
  ⟨by simp [NodeState.putFile], h.table⟩

theorem dropFile (h : Agree p a b) : Agree p (a.dropFile p.path) (b.dropFile p.path) :=
  ⟨by simp [NodeState.dropFile], h.table⟩

theorem dropTable (h : Agree p a b) : Agree p (a.dropTable p.key) (b.dropTable p.key) :=
  ⟨h.file, by simp [NodeState.dropTable]⟩

/-- The table that is loaded need not be the plan's. -/
theorem load (h : Agree p a b) (text : String) :
    Agree p (a.load p.target.namespaceName text) (b.load p.target.namespaceName text) := by
  refine ⟨h.file, ?_⟩
  by_cases hkey : p.key = (p.target.namespaceName, tableName text)
  · simp only [NodeState.load, NodeState.putTable, ← hkey, Function.update_self, h.table]
  · simp only [NodeState.load, NodeState.putTable, Function.update_of_ne hkey, h.table]

/-- A command does the same to nodes that look the same to its plan. -/
theorem perform (h : Agree p a b) (step : Step) :
    (a.perform (p.pipeline step)).2 = (b.perform (p.pipeline step)).2 ∧
      Agree p (a.perform (p.pipeline step)).1 (b.perform (p.pipeline step)).1 := by
  cases step with
  | writing => exact ⟨rfl, h.putFile _⟩
  | checking =>
    refine ⟨?_, h⟩
    change (if (a.files p.path).isSome then accepted else missing) = _
    rw [h.file]
    rfl
  | lookingUp =>
    rw [Plan.perform_lookingUp, Plan.perform_lookingUp, h.table]
    exact ⟨rfl, h⟩
  | flushing =>
    change (a.deleteTable p.key).2 = (b.deleteTable p.key).2 ∧
      Agree p (a.deleteTable p.key).1 (b.deleteTable p.key).1
    rw [NodeState.deleteTable, NodeState.deleteTable, h.table]
    cases b.tables p.key with
    | none => exact ⟨rfl, h⟩
    | some text => exact ⟨rfl, h.dropTable⟩
  | applying =>
    change (a.loadFile p.target.namespaceName p.path).2 = (b.loadFile p.target.namespaceName p.path).2 ∧
      Agree p (a.loadFile p.target.namespaceName p.path).1 (b.loadFile p.target.namespaceName p.path).1
    rw [NodeState.loadFile, NodeState.loadFile, h.file]
    cases b.files p.path with
    | none => exact ⟨rfl, h⟩
    | some text => exact ⟨rfl, h.load text⟩
  | cleaning => exact ⟨rfl, h.dropFile⟩
  | listing =>
    refine ⟨?_, h⟩
    change a.listTable p.key = b.listTable p.key
    rw [NodeState.listTable, NodeState.listTable, h.table]

end Agree

/-- A command keeps to the file and the table of its plan, if what it loads is the plan's document. -/
theorem perform_kept {p : Plan} (hp : p.Fit) (now : NodeState) {step : Step}
    (hfile : step = .applying → now.files p.path = some p.document) :
    Kept p now (now.perform (p.pipeline step)).1 := by
  have hrefl := Kept.refl p now
  cases step with
  | writing => exact hrefl.putFile _
  | checking => exact hrefl
  | lookingUp => exact hrefl
  | flushing =>
    change Kept p now (now.deleteTable p.key).1
    rw [NodeState.deleteTable]
    split
    · exact hrefl.dropTable
    · exact hrefl
  | applying =>
    rw [Plan.perform_applying (hfile rfl), NodeState.load, hp.named]
    exact hrefl.putTable _
  | cleaning => exact hrefl.dropFile
  | listing => exact hrefl

/-- A node that looks to a plan as the one that the plan would have come to alone. -/
def Sees (p : Plan) (s now : NodeState) (next : Option Step) : Prop :=
  ∃ alone, p.Reaches s alone next ∧ Agree p alone now

namespace Sees

variable {p q : Plan} {s now : NodeState} {step : Step} {next : Option Step}

theorem first (p : Plan) (s : NodeState) : Sees p s s (some .writing) :=
  ⟨s, at_first p s, rfl, rfl⟩

/-- A turn of its own takes a plan to what follows. -/
theorem own (hp : p.Fit) (h : Sees p s now (some step)) (loaded : Bool) :
    Sees p s (now.respond (p.command step)).1
      (Operation.build.next? step (loadedAfter loaded step (now.respond (p.command step)).2.exit)) := by
  obtain ⟨alone, hat, hagree⟩ := h
  obtain ⟨hout, hafter⟩ := hagree.perform step
  rw [Plan.respond_command hp, ← hout]
  exact ⟨_, (Plan.At.perform hp hat loaded).2, hafter⟩

/-- A turn of a plan apart from it makes no difference to a plan. -/
theorem other (hq : q.Fit) (hpq : Apart p q) (h : Sees p s now next)
    (hfile : step = .applying → now.files q.path = some q.document) :
    Sees p s (now.respond (q.command step)).1 next := by
  obtain ⟨alone, hreaches, hagree⟩ := h
  rw [Plan.respond_command hq]
  exact ⟨alone, hreaches, hagree.trans ((perform_kept hq now hfile).agree hpq)⟩

theorem staged (h : Sees p s now (some .applying)) : now.files p.path = some p.document := by
  obtain ⟨alone, ⟨rfl, -, -⟩, hagree⟩ := h
  exact hagree.file.symm.trans (Plan.files_putFile s _ _)

theorem loaded (hp : p.Fit) (h : Sees p s now (some .applying)) :
    (now.respond (p.command .applying)).1.tables p.key = some p.document := by
  have hcleaning : Sees p s (now.respond (p.command .applying)).1 (some .cleaning) := h.own hp false
  obtain ⟨alone, ⟨rfl, -, -⟩, hagree⟩ := hcleaning
  exact hagree.table.symm.trans (Function.update_self ..)

theorem installed (h : Sees p s now none) :
    now.tables p.key = some p.document ∧ now.files p.path = none := by
  obtain ⟨alone, rfl, hagree⟩ := h
  have hinstalled := Installed.installed p s
  exact ⟨hagree.table.symm.trans hinstalled.table, hagree.file.symm.trans hinstalled.unstaged⟩

end Sees

/-- Two plans on the way, each of which sees the node as if it were alone. -/
structure Midway (p q : Plan) (s now : NodeState) (next next' : Option Step) : Prop where
  first : Sees p s now next
  second : Sees q s now next'

namespace Midway

variable {p q : Plan} {s now : NodeState} {step : Step} {next next' : Option Step}

theorem symm (h : Midway p q s now next next') : Midway q p s now next' next := ⟨h.second, h.first⟩

/-- A turn of the first plan, which is given what the node gives, is no matter to the second one. -/
theorem turn (hp : p.Fit) (hpq : Apart p q) (h : Midway p q s now (some step) next') (loaded : Bool)
    {n : Node} {out : Output} (hout : (now.respond (p.command step)).2 = out) :
    Midway p q s (now.respond (p.command step)).1
        (Operation.build.next? step (loadedAfter loaded step out.exit)) next' ∧
      (step = .applying → LoadsOwn now ⟨p, ⟨n, step, out⟩⟩) := by
  subst hout
  have hstaged : step = .applying → now.files p.path = some p.document := by
    rintro rfl
    exact h.first.staged
  refine ⟨⟨h.first.own hp loaded, h.second.other hp hpq.symm hstaged⟩, ?_⟩
  rintro rfl
  exact ⟨h.first.staged, h.first.loaded hp⟩

/-- However the turns of two plans are interleaved, each plan loads what is its own, and both come to their
end. -/
theorem run (hp : p.Fit) (hq : q.Fit) (hpq : Apart p q) {xs ys zs : List Turn}
    (hzs : Interleaved xs ys zs) {loaded loaded' : Bool} (hxs : Follows p next loaded xs)
    (hys : Follows q next' loaded' ys) (h : Midway p q s now next next') (hgiven : GivenBy now zs) :
    AllLoadOwn now zs ∧ Midway p q s (served now zs) none none := by
  -- Whose turn is next is told by the interleaving; the other plan stays where it is.
  induction hzs generalizing now next next' loaded loaded' with
  | nil =>
    cases hxs
    cases hys
    exact ⟨allLoadOwn_nil now, h⟩
  | left hzs ih =>
    cases hxs with
    | goes rest =>
      obtain ⟨hout, hgiven⟩ := hgiven
      obtain ⟨hturn, hown⟩ := h.turn hp hpq loaded hout
      obtain ⟨hall, hend⟩ := ih rest hys hturn hgiven
      exact ⟨allLoadOwn_cons hown hall, hend⟩
  | right hzs ih =>
    cases hys with
    | goes rest =>
      obtain ⟨hout, hgiven⟩ := hgiven
      obtain ⟨hturn, hown⟩ := h.symm.turn hq hpq.symm loaded' hout
      obtain ⟨hall, hend⟩ := ih hxs rest hturn.symm hgiven
      exact ⟨allLoadOwn_cons hown hall, hend⟩

end Midway

section Fresh

variable {p q : Plan} {now after : NodeState} {step : Step} {n : Node} {out : Output} {xs : List Turn}

theorem served_cons (hp : p.Fit) (h : now.perform (p.pipeline step) = (after, out)) :
    served now (⟨p, ⟨n, step, out⟩⟩ :: xs) = served after xs := by
  have hrespond : now.respond (p.command step) = (after, out) := (Plan.respond_command hp ..).trans h
  exact congrArg (fun x => served x.1 xs) hrespond

theorem givenBy_cons (hp : p.Fit) (h : now.perform (p.pipeline step) = (after, out))
    (hxs : GivenBy after xs) : GivenBy now (⟨p, ⟨n, step, out⟩⟩ :: xs) := by
  have hrespond : now.respond (p.command step) = (after, out) := (Plan.respond_command hp ..).trans h
  refine ⟨congrArg Prod.snd hrespond, ?_⟩
  rw [Turn.command, hrespond]
  exact hxs

/-- The answer of a lookup that finds no table. -/
def absent : Output := ⟨1, "", ""⟩

theorem perform_lookingUp_absent (h : now.tables p.key = none) :
    now.perform (p.pipeline .lookingUp) = (now, absent) := by
  rw [Plan.perform_lookingUp, h]
  rfl

/-- A node without files and without tables. -/
def freshNode : NodeState := ⟨fun _ => none, fun _ => none⟩

/-- What is recorded of a build on a node that does not have its table. -/
def freshRecord (n : Node) : Record :=
  [⟨n, .writing, accepted⟩, ⟨n, .checking, accepted⟩, ⟨n, .lookingUp, absent⟩,
    ⟨n, .applying, accepted⟩, ⟨n, .cleaning, accepted⟩]

/-- Answers to the calls of such a build. -/
def freshExecutor : Executor := fun calls _ => .ok (if calls.length = 2 then absent else accepted)

theorem course_fresh (p : Plan) (n : Node) :
    Course freshExecutor .build p n .writing false [] (freshRecord n) none :=
  .next rfl rfl rfl (.next rfl rfl rfl (.next rfl rfl rfl (.next rfl rfl rfl (.last rfl rfl rfl))))

theorem ran_fresh (d : Document) (t : Target) (directory : String) (n : Node) :
    Ran d t directory n.host ((freshRecord n).map (Turn.mk ⟨t, directory, d.text⟩)) := by
  let s : Site := ⟨freshExecutor, ⟨"", n.host, n.host⟩, directory⟩
  have hc : Course s.executor .build ⟨t, directory, d.text⟩ n .writing false [] (freshRecord n) none :=
    course_fresh _ n
  exact ⟨s, n, [], _, [], freshRecord n, rfl, rfl, hc.stepsFrom_eq [], rfl⟩

/-- Both documents are staged before the first one is loaded. -/
def opening (p q : Plan) (n : Node) : List Turn :=
  [⟨p, ⟨n, .writing, accepted⟩⟩, ⟨q, ⟨n, .writing, accepted⟩⟩, ⟨p, ⟨n, .checking, accepted⟩⟩,
    ⟨p, ⟨n, .lookingUp, absent⟩⟩]

/-- What is left after the first one is loaded. -/
def closing (p q : Plan) (n : Node) : List Turn :=
  [⟨q, ⟨n, .checking, accepted⟩⟩, ⟨q, ⟨n, .lookingUp, absent⟩⟩, ⟨q, ⟨n, .applying, accepted⟩⟩,
    ⟨p, ⟨n, .cleaning, accepted⟩⟩, ⟨q, ⟨n, .cleaning, accepted⟩⟩]

def woven (p q : Plan) (n : Node) : List Turn :=
  opening p q n ++ ⟨p, ⟨n, .applying, accepted⟩⟩ :: closing p q n

theorem interleaved_woven (p q : Plan) (n : Node) : Interleaved ((freshRecord n).map (Turn.mk p))
    ((freshRecord n).map (Turn.mk q)) (woven p q n) :=
  .left (.right (.left (.left (.left (.right (.right (.right (.left (.right .nil)))))))))

/-- A node on which both documents are staged. -/
def bothStaged (p q : Plan) : NodeState :=
  (freshNode.putFile p.path p.document).putFile q.path q.document

theorem staged_second (p q : Plan) : (bothStaged p q).files q.path = some q.document :=
  Plan.files_putFile ..

theorem staged_first (h : p.path ≠ q.path) : (bothStaged p q).files p.path = some p.document :=
  (Function.update_of_ne h ..).trans (Plan.files_putFile ..)

variable {text : String}

theorem served_opening (hp : p.Fit) (hq : q.Fit)
    (hfile : (bothStaged p q).files p.path = some text) :
    served freshNode (opening p q n) = bothStaged p q := by
  have hnone : (bothStaged p q).tables p.key = none := rfl
  rw [opening, served_cons hp (Plan.perform_writing ..), served_cons hq (Plan.perform_writing ..),
    ← bothStaged, served_cons hp (Plan.perform_checking hfile),
    served_cons hp (perform_lookingUp_absent hnone)]
  rfl

theorem givenBy_opening (hp : p.Fit) (hq : q.Fit)
    (hfile : (bothStaged p q).files p.path = some text) : GivenBy freshNode (opening p q n) := by
  have hnone : (bothStaged p q).tables p.key = none := rfl
  refine givenBy_cons hp (Plan.perform_writing ..) (givenBy_cons hq (Plan.perform_writing ..) ?_)
  exact givenBy_cons hp (Plan.perform_checking hfile)
    (givenBy_cons hp (perform_lookingUp_absent hnone) trivial)

theorem givenBy_closing (hp : p.Fit) (hq : q.Fit) (hfile : now.files q.path = some q.document)
    (htable : now.tables q.key = none) : GivenBy now (closing p q n) := by
  refine givenBy_cons hq (Plan.perform_checking hfile) ?_
  refine givenBy_cons hq (perform_lookingUp_absent htable) ?_
  refine givenBy_cons hq (Plan.perform_applying hfile) ?_
  exact givenBy_cons hp (Plan.perform_cleaning ..) (givenBy_cons hq (Plan.perform_cleaning ..) trivial)

/-- All commands succeed, if what the first one loads is not the second one's table. -/
theorem givenBy_woven (hp : p.Fit) (hq : q.Fit)
    (hfile : (bothStaged p q).files p.path = some text)
    (hkey : q.key ≠ (p.target.namespaceName, tableName text)) : GivenBy freshNode (woven p q n) := by
  refine givenBy_append.2 ⟨givenBy_opening hp hq hfile, ?_⟩
  rw [served_opening hp hq hfile]
  refine givenBy_cons hp (Plan.perform_applying hfile) ?_
  exact givenBy_closing hp hq (staged_second p q) (Function.update_of_ne hkey ..)

end Fresh

section Deploys

variable {spec spec' : Spec} {t u : Target} {d d' : Document}

/-- Builds for confused targets may take turns so that all commands succeed and the one loads the other's
document. -/
theorem Confused.loads_other (h : Confused t u) (hd : Document.build spec t = .ok d)
    (hd' : Document.build spec' u = .ok d') (directory host : String) :
    d'.text ≠ d.text ∧ ∃ xs ys before x after,
      Ran d t directory host xs ∧ Ran d' u directory host ys ∧
      Interleaved xs ys (before ++ x :: after) ∧ GivenBy freshNode (before ++ x :: after) ∧
      x.plan = ⟨t, directory, d.text⟩ ∧ x.done.step = .applying ∧
      (served freshNode before).files x.plan.path = some d'.text := by
  have hp := fit_of_build hd directory
  have hq := fit_of_build hd' directory
  have hpath : Plan.path ⟨t, directory, d.text⟩ = Plan.path ⟨u, directory, d'.text⟩ :=
    (Plan.path_eq_iff ..).2 (Or.inr h)
  have hfile : (bothStaged ⟨t, directory, d.text⟩ ⟨u, directory, d'.text⟩).files
      (Plan.path ⟨t, directory, d.text⟩) = some d'.text := by
    rw [hpath]
    exact staged_second ..
  have hkey : Plan.key ⟨u, directory, d'.text⟩ ≠ (t.namespaceName, tableName d'.text) :=
    fun heq => h.ne.1 (congrArg Prod.fst heq).symm
  have htext : d'.text ≠ d.text := by
    intro heq
    apply h.ne.2
    calc t.table = tableName d.text := hp.named.symm
      _ = tableName d'.text := congrArg tableName heq.symm
      _ = u.table := hq.named
  refine ⟨htext, _, _, opening ⟨t, directory, d.text⟩ ⟨u, directory, d'.text⟩ ⟨host, .enabled⟩,
    ⟨⟨t, directory, d.text⟩, ⟨⟨host, .enabled⟩, .applying, accepted⟩⟩,
    closing ⟨t, directory, d.text⟩ ⟨u, directory, d'.text⟩ ⟨host, .enabled⟩,
    ran_fresh d t directory ⟨host, .enabled⟩, ran_fresh d' u directory ⟨host, .enabled⟩,
    interleaved_woven .., givenBy_woven hp hq hfile hkey, rfl, rfl, ?_⟩
  rw [served_opening hp hq hfile]
  exact hfile

theorem run_of_ran (hne : (t.namespaceName, t.table) ≠ (u.namespaceName, u.table))
    (hnot : ¬Confused t u) (hd : Document.build spec t = .ok d) (hd' : Document.build spec' u = .ok d')
    {directory host : String} {xs ys zs : List Turn} {now : NodeState}
    (hxs : Ran d t directory host xs) (hys : Ran d' u directory host ys) (hzs : Interleaved xs ys zs)
    (hgiven : GivenBy now zs) : AllLoadOwn now zs ∧
      Midway ⟨t, directory, d.text⟩ ⟨u, directory, d'.text⟩ now (served now zs) none none := by
  have hpath : Plan.path ⟨t, directory, d.text⟩ ≠ Plan.path ⟨u, directory, d'.text⟩ := by
    intro heq
    rcases (Plan.path_eq_iff ..).1 heq with ⟨hn, ht⟩ | h
    · exact hne (Prod.ext hn ht)
    · exact hnot h
  have hstart : Midway ⟨t, directory, d.text⟩ ⟨u, directory, d'.text⟩ now now
      (some .writing) (some .writing) := ⟨.first _ now, .first _ now⟩
  exact hstart.run (fit_of_build hd directory) (fit_of_build hd' directory) ⟨hpath, hne⟩ hzs
    hxs.follows hys.follows hgiven

/-- The document of a build is loaded, and nothing is staged any more. -/
def Ended (d : Document) (t : Target) (directory : String) (now : NodeState) : Prop :=
  now.tables (t.namespaceName, t.table) = some d.text ∧ now.files (Plan.path ⟨t, directory, d.text⟩) = none

/-- Builds for different targets are staged apart unless the targets are confused; and just then they may
take turns on a node as they like, and each loads its own document. Both then end with their documents
loaded. -/
theorem allLoadOwn_iff_not_confused
    (hne : (t.namespaceName, t.table) ≠ (u.namespaceName, u.table)) (directory : String) :
    (Plan.path ⟨t, directory, ""⟩ = Plan.path ⟨u, directory, ""⟩ ↔ Confused t u) ∧
    ∀ spec spec' d d', Document.build spec t = .ok d → Document.build spec' u = .ok d' →
      (¬Confused t u ↔ ∀ host xs ys zs now, Ran d t directory host xs → Ran d' u directory host ys →
        Interleaved xs ys zs → GivenBy now zs → AllLoadOwn now zs) ∧
      (¬Confused t u → ∀ host xs ys zs now, Ran d t directory host xs → Ran d' u directory host ys →
        Interleaved xs ys zs → GivenBy now zs →
        Ended d t directory (served now zs) ∧ Ended d' u directory (served now zs)) := by
  have hnames : ¬(t.namespaceName = u.namespaceName ∧ t.table = u.table) :=
    fun h => hne (Prod.ext h.1 h.2)
  refine ⟨(Plan.path_eq_iff ..).trans (or_iff_right hnames), ?_⟩
  intro spec spec' d d' hd hd'
  refine ⟨⟨?_, ?_⟩, ?_⟩
  · intro hnot host xs ys zs now hxs hys hzs hgiven
    exact (run_of_ran hne hnot hd hd' hxs hys hzs hgiven).1
  · intro hall h
    obtain ⟨htext, xs, ys, before, x, after, hxs, hys, hzs, hgiven, hplan, hstep, hother⟩ :=
      h.loads_other hd hd' directory ""
    have hown := (hall "" xs ys _ freshNode hxs hys hzs hgiven before x after rfl hstep).staged
    rw [hplan] at hother hown
    exact htext (Option.some.inj (hother.symm.trans hown))
  · intro hnot host xs ys zs now hxs hys hzs hgiven
    have hend := (run_of_ran hne hnot hd hd' hxs hys hzs hgiven).2
    exact ⟨hend.first.installed, hend.second.installed⟩

/-- A second table in the namespace of the other target. -/
def natTarget : Target := ⟨"shop", "nat", 0⟩

theorem allLoadOwn_iff_not_confused_web :
    ("shop", "edge") ≠ ("shop", "nat") ∧
    Plan.path ⟨Document.webTarget, "/tmp", ""⟩ ≠ Plan.path ⟨natTarget, "/tmp", ""⟩ ∧
    ∃ d d' xs ys zs, Document.build Document.webSpec Document.webTarget = .ok d ∧
      Document.build Document.webSpec natTarget = .ok d' ∧
      Ran d Document.webTarget "/tmp" "west" xs ∧ Ran d' natTarget "/tmp" "west" ys ∧
      Interleaved xs ys zs ∧ GivenBy freshNode zs ∧ AllLoadOwn freshNode zs := by
  have hne : ("shop", "edge") ≠ ("shop", "nat") := by decide
  have hnot : ¬Confused Document.webTarget natTarget := fun h => h.ne.1 rfl
  have hcheck : natTarget.check = .ok () := by rfl
  obtain ⟨d, hd⟩ := Document.exists_webDocument
  obtain ⟨d', hd'⟩ := Document.exists_build_of_check hd hcheck
  have hfit := fit_of_build hd "/tmp"
  have hfit' := fit_of_build hd' "/tmp"
  obtain ⟨hpath, hall⟩ :=
    allLoadOwn_iff_not_confused (t := Document.webTarget) (u := natTarget) hne "/tmp"
  have hfile : (bothStaged ⟨Document.webTarget, "/tmp", d.text⟩ ⟨natTarget, "/tmp", d'.text⟩).files
      (Plan.path ⟨Document.webTarget, "/tmp", d.text⟩) = some d.text :=
    staged_first (mt hpath.1 hnot)
  have hkey : Plan.key ⟨natTarget, "/tmp", d'.text⟩ ≠ ("shop", tableName d.text) := by
    rw [hfit.named]
    exact hne.symm
  have hgiven := givenBy_woven (n := ⟨"west", .enabled⟩) hfit hfit' hfile hkey
  have hxs := ran_fresh d Document.webTarget "/tmp" ⟨"west", .enabled⟩
  have hys := ran_fresh d' natTarget "/tmp" ⟨"west", .enabled⟩
  exact ⟨hne, mt hpath.1 hnot, d, d', _, _, _, hd, hd', hxs, hys, interleaved_woven .., hgiven,
    (hall _ _ d d' hd hd').1.1 hnot _ _ _ _ _ hxs hys (interleaved_woven ..) hgiven⟩

/-- Two targets that are staged in `podfw_a_b_c.nft`. -/
def splitLate : Target := ⟨"a_b", "c", 0⟩

def splitEarly : Target := ⟨"a", "b_c", 0⟩

theorem confused_splits : Confused splitLate splitEarly := Or.inr ⟨"b", by decide, by decide⟩

/-- All commands of two builds succeed, and the one loads the document of the other. -/
theorem confused_builds_mix_up :
    splitLate.check = .ok () ∧ splitEarly.check = .ok () ∧ ("a_b", "c") ≠ ("a", "b_c") ∧
    Plan.path ⟨splitLate, "/tmp", ""⟩ = Plan.path ⟨splitEarly, "/tmp", ""⟩ ∧
    ∃ d d', Document.build Document.webSpec splitLate = .ok d ∧
      Document.build Document.webSpec splitEarly = .ok d' ∧ d'.text ≠ d.text ∧
      ∃ xs ys before x after, Ran d splitLate "/tmp" "west" xs ∧ Ran d' splitEarly "/tmp" "west" ys ∧
        Interleaved xs ys (before ++ x :: after) ∧ GivenBy freshNode (before ++ x :: after) ∧
        x.plan = ⟨splitLate, "/tmp", d.text⟩ ∧ x.done.step = .applying ∧
        (served freshNode before).files x.plan.path = some d'.text := by
  have hlate : splitLate.check = .ok () := by rfl
  have hearly : splitEarly.check = .ok () := by rfl
  have hpath : Plan.path ⟨splitLate, "/tmp", ""⟩ = Plan.path ⟨splitEarly, "/tmp", ""⟩ :=
    (Plan.path_eq_iff ..).2 (Or.inr confused_splits)
  obtain ⟨d₀, hd₀⟩ := Document.exists_webDocument
  obtain ⟨d, hd⟩ := Document.exists_build_of_check hd₀ hlate
  obtain ⟨d', hd'⟩ := Document.exists_build_of_check hd₀ hearly
  obtain ⟨htext, hmixed⟩ := confused_splits.loads_other hd hd' "/tmp" "west"
  exact ⟨hlate, hearly, by decide, hpath, d, d', hd, hd', htext, hmixed⟩

end Deploys
end Deploy
end TwinWall
