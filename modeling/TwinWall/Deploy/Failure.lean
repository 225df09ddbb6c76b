import TwinWall.Decimal.Natural
import TwinWall.Deploy.Record
import TwinWall.Nft.Diagnostics
import TwinWall.Nft.Hint

/-! A step that failed, with all that is needed to go on by hand: what the node answered, a hint, and
every step that succeeded before. -/
namespace TwinWall
namespace Deploy

open Remote

/-- Either the node was not reached, or its command ended in a way that stops the operation. -/
inductive Trouble where
  | channel (failure : ChannelFailure)
  | payload (output : Output)
deriving DecidableEq, Repr

structure Failure where
  operation : Operation
  node : Node
  step : Step
  trouble : Trouble
  source : String
  done : Record
deriving DecidableEq, Repr

namespace Trouble

def isChannel : Trouble → Bool
  | channel _ => true
  | payload _ => false

def lines (l : List String) : String := String.join (l.map (· ++ "\n"))

/-- The lines of a stream below its label; blanks at its end are left out. -/
def stream (label text : String) : List String :=
  let text := Text.trimEnd text
  if text = "" then [label ++ ": (empty)"]
  else (label ++ ":") :: (Text.lines text).map ("    " ++ ·)

def hint (h : Nft.Hint) : List String :=
  ("Hint: " ++ h.message) :: h.suggestions.map ("  - " ++ ·) ++
    h.url.toList.map ("  See: " ++ ·)

def hintFor (stderr : String) : List String :=
  match Nft.errors stderr with
  | [] => []
  | l => hint (.ofReport ("\n".intercalate l))

def report : Trouble → List String
  | channel f =>
    match f.code with
    | some n => ["Channel error (code " ++ Decimal.ofInt n ++ "): " ++ f.message]
    | none => ["Channel error: " ++ f.message]
  | payload o =>
    ("Payload exit code: " ++ Decimal.ofInt o.exit) :: stream "STDOUT" o.stdout ++
      stream "STDERR" o.stderr ++ hintFor o.stderr

end Trouble

namespace Failure

/-- A step with its status, and the first line of what it wrote if that is not blank. -/
def doneLine (d : Done) : String :=
  let head := "    - " ++ d.step.text ++ " (exit " ++ Decimal.ofInt d.output.exit ++ ")"
  let out := Text.trim d.output.stdout
  if out = "" then head else head ++ " stdout: " ++ Text.firstLine out

def doneOn (r : Record) (n : Node) : List String :=
  ("  " ++ n.text ++ ":") :: (r.ofHost n.host).map doneLine

def doneLines (r : Record) : List String :=
  match r with
  | [] => ["  (none)"]
  | r => r.nodes.flatMap (doneOn r)

def reportLines (f : Failure) : List String :=
  [f.operation.text ++ " failed on " ++ f.node.role.text ++ " node " ++ f.node.host ++
      " at step " ++ f.step.text,
    "Config file: " ++ f.source,
    "PodNet: " ++ f.node.text] ++
    f.trouble.report ++ "Successful steps:" :: doneLines f.done

def message (f : Failure) : String := Trouble.lines f.reportLines

end Failure
end Deploy
end TwinWall
