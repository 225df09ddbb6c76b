import TwinWall.Deploy.Failure

/-! Operations on both nodes. The disabled node is served only after the enabled one has succeeded, and
the first step that fails ends all. Each run tells beside its outcome which calls there are then. -/
namespace TwinWall
namespace Deploy

open Remote

/-- Where operations are run, and from where the nodes are known. -/
structure Site where
  executor : Executor
  topology : Topology
  directory : String

/-- Whether a status lets the operation go on. A lookup that finds nothing has status one. -/
def succeeds : Step → Int → Bool
  | .lookingUp, n => n = 0 || n = 1
  | _, n => n = 0

/-- Whether the table is loaded, as far as it is known after a step. -/
def loadedAfter (loaded : Bool) : Step → Int → Bool
  | .lookingUp, n => n = 0
  | _, _ => loaded

namespace Site

def failure (s : Site) (o : Operation) (n : Node) (step : Step) (t : Trouble) (r : Record) :
    Failure :=
  ⟨o, n, step, t, s.topology.source, r⟩

/-- Takes a step and those after it on one node. -/
def stepsFrom (s : Site) (o : Operation) (n : Node) (p : Plan) (step : Step) (loaded : Bool)
    (calls : List Call) (r : Record) : Except Failure Record × List Call :=
  let call : Call := ⟨n, p.command step⟩
  let calls' := calls ++ [call]
  match s.executor calls call with
  | .error f => (.error (s.failure o n step (.channel f) r), calls')
  | .ok out =>
    if succeeds step out.exit then
      let r' := r ++ [⟨n, step, out⟩]
      match _h : o.next? step (loadedAfter loaded step out.exit) with
      | none => (.ok r', calls')
      | some t => stepsFrom s o n p t (loadedAfter loaded step out.exit) calls' r'
    else (.error (s.failure o n step (.payload out) r), calls')
termination_by step.later
decreasing_by exact Operation.later_lt_of_next? _h

/-- All steps of an operation on one node. -/
def runOn (s : Site) (o : Operation) (p : Plan) (n : Node) (calls : List Call) (r : Record) :
    Except Failure Record × List Call :=
  s.stepsFrom o n p o.first false calls r

/-- All steps on both nodes. -/
def runOnBoth (s : Site) (o : Operation) (p : Plan) (calls : List Call) :
    Except Failure Record × List Call :=
  match s.runOn o p s.topology.enabled calls [] with
  | (.error f, calls) => (.error f, calls)
  | (.ok r, calls) => s.runOn o p s.topology.disabled calls r

def plan (s : Site) (t : Policy.Target) (document : String) : Plan := ⟨t, s.directory, document⟩

/-- Brings a document onto one node, and adds the steps to a record. -/
def deploy (s : Site) (d : Document) (t : Policy.Target) (n : Node) (calls : List Call)
    (r : Record) : Except Failure Record × List Call :=
  s.runOn .build (s.plan t d.text) n calls r

def build (s : Site) (d : Document) (t : Policy.Target) (calls : List Call) :
    Except Failure Record × List Call :=
  s.runOnBoth .build (s.plan t d.text) calls

def scrub (s : Site) (t : Policy.Target) (calls : List Call) :
    Except Failure Record × List Call :=
  s.runOnBoth .scrub (s.plan t "") calls

/-- What is reported of an operation that succeeded on both nodes. -/
def successMessage (s : Site) (verb : String) (t : Policy.Target) : String :=
  "Successfully " ++ verb ++ " table " ++ t.table ++ " in namespace " ++ t.namespaceName ++
    " on enabled node " ++ s.topology.enabledHost ++ " and disabled node " ++
    s.topology.disabledHost

def builtMessage (s : Site) (t : Policy.Target) : String := s.successMessage "built" t

def scrubbedMessage (s : Site) (t : Policy.Target) : String := s.successMessage "scrubbed" t

end Site
end Deploy
end TwinWall
