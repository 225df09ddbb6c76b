import Mathlib.Logic.Function.Basic
import TwinWall.Proofs.Deploy.Commands
import TwinWall.Proofs.Deploy.Course

/-! Nodes that take the commands of a plan. A node holds files by their path and tables by their namespace
and name; a command that it cannot carry out, or that fails for any other reason, changes nothing. -/
namespace TwinWall
namespace Deploy

open Policy Remote Shell

structure NodeState where
  files : String → Option String
  tables : String × String → Option String

def accepted : Output := ⟨0, "", ""⟩

def missing : Output := ⟨1, "", "Error: No such file or directory\n"⟩

def notFound : Output := ⟨127, "", "sh: command not found\n"⟩

/-- The name in the first line of a text that declares a table. -/
def tableName (text : String) : String :=
  match "table inet ".toList.isPrefixOf? (text.toList.takeWhile (· ≠ '\n')) >>=
      (" \x7b".toList.isSuffixOf? ·) with
  | some name => String.ofList name
  | none => ""

namespace NodeState

def putFile (s : NodeState) (path text : String) : NodeState :=
  { s with files := Function.update s.files path (some text) }

def dropFile (s : NodeState) (path : String) : NodeState :=
  { s with files := Function.update s.files path none }

def putTable (s : NodeState) (key : String × String) (text : String) : NodeState :=
  { s with tables := Function.update s.tables key (some text) }

def dropTable (s : NodeState) (key : String × String) : NodeState :=
  { s with tables := Function.update s.tables key none }

/-- Whether a line is one of those that list the tables of a namespace. -/
def lists (s : NodeState) (space line : String) : Bool :=
  match "table inet ".toList.isPrefixOf? line.toList with
  | some name => (s.tables (space, String.ofList name)).isSome
  | none => false

/-- Loading adds to a table that is there already. -/
def load (s : NodeState) (space text : String) : NodeState :=
  s.putTable (space, tableName text) ((s.tables (space, tableName text)).getD "" ++ text)

def loadFile (s : NodeState) (space path : String) : NodeState × Output :=
  match s.files path with
  | some text => (s.load space text, accepted)
  | none => (s, missing)

def deleteTable (s : NodeState) (key : String × String) : NodeState × Output :=
  match s.tables key with
  | some _ => (s.dropTable key, accepted)
  | none => (s, missing)

def listTable (s : NodeState) (key : String × String) : Output :=
  match s.tables key with
  | some text => ⟨0, text, ""⟩
  | none => missing

/-- What a pipeline does to a node, and its output. -/
def perform (s : NodeState) : List Command → NodeState × Output
  | [⟨["cat"], some path, some text⟩] => (s.putFile path text, accepted)
  | [⟨["rm", "--force", path], none, none⟩] => (s.dropFile path, accepted)
  | [⟨["ip", "netns", "exec", _, "nft", "--check", "--file", path], none, none⟩] =>
    (s, if (s.files path).isSome then accepted else missing)
  | [⟨["ip", "netns", "exec", space, "nft", "list", "tables"], none, none⟩,
      ⟨["grep", "-qxF", line], none, none⟩] =>
    (s, ⟨if s.lists space line then 0 else 1, "", ""⟩)
  | [⟨["ip", "netns", "exec", space, "nft", "delete", "table", "inet", name], none, none⟩] =>
    s.deleteTable (space, name)
  | [⟨["ip", "netns", "exec", space, "nft", "--file", path], none, none⟩] => s.loadFile space path
  | [⟨["ip", "netns", "exec", space, "nft", "list", "table", "inet", name], none, none⟩] =>
    (s, s.listTable (space, name))
  | _ => (s, notFound)

def respond (s : NodeState) (command : String) : NodeState × Output :=
  match pipeline? command with
  | some cs => s.perform cs
  | none => (s, notFound)

end NodeState

/-- Whether a command looks a table up, so that status one is an answer. -/
def isLookup (command : String) : Bool :=
  match pipeline? command with
  | some [⟨["ip", "netns", "exec", _, "nft", "list", "tables"], none, none⟩,
      ⟨["grep", "-qxF", _], none, none⟩] => true
  | _ => false

/-- What may come of a call instead of its answer, after the calls before it. -/
abbrev Faults := List Call → Call → Option Reply

/-- A reply that tells of a failure. -/
def isFailure (command : String) : Reply → Bool
  | .error _ => true
  | .ok out => out.exit ≠ 0 && !(isLookup command && out.exit = 1)

def fault? (faults : Faults) (calls : List Call) (call : Call) : Option Reply :=
  (faults calls call).filter (isFailure call.command)

/-- The nodes by their hosts. -/
abbrev World := String → NodeState

namespace World

/-- A call changes the node that it goes to, unless it fails. -/
def step (faults : Faults) (calls : List Call) (w : World) (call : Call) : World :=
  match fault? faults calls call with
  | some _ => w
  | none => Function.update w call.node.host ((w call.node.host).respond call.command).1

def afterFrom (faults : Faults) : List Call → World → List Call → World
  | _, w, [] => w
  | calls, w, c :: cs => afterFrom faults (calls ++ [c]) (step faults calls w c) cs

/-- The nodes after calls that start from the given ones. -/
def after (faults : Faults) (w : World) (calls : List Call) : World := afterFrom faults [] w calls

theorem afterFrom_append (faults : Faults) (calls : List Call) (w : World) (cs ds : List Call) :
    afterFrom faults calls w (cs ++ ds) =
      afterFrom faults (calls ++ cs) (afterFrom faults calls w cs) ds := by
  induction cs generalizing calls w with
  | nil => simp [afterFrom]
  | cons c cs ih => simp [afterFrom, ih]

theorem after_append_singleton (faults : Faults) (w : World) (calls : List Call) (call : Call) :
    w.after faults (calls ++ [call]) = step faults calls (w.after faults calls) call := by
  rw [after, afterFrom_append]
  rfl

def executor (faults : Faults) (w : World) : Executor := fun calls call =>
  match fault? faults calls call with
  | some r => r
  | none => .ok ((w.after faults calls call.node.host).respond call.command).2

/-- Operations on these nodes. -/
def site (faults : Faults) (w : World) (topology : Topology) (directory : String) : Site :=
  ⟨w.executor faults, topology, directory⟩

end World
end Deploy
end TwinWall
