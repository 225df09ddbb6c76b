import TwinWall.Document.Assemble
import TwinWall.Shell.Word

/-! Steps of an operation on one node, their order and their commands. A document is staged and checked
on the node before the table that is loaded there is touched. -/
namespace TwinWall
namespace Deploy

inductive Step where
  | writing
  | checking
  | lookingUp
  | flushing
  | applying
  | cleaning
  | listing
deriving DecidableEq, Repr

inductive Operation where
  | build
  | scrub
  | read
deriving DecidableEq, Repr

namespace Step

def text : Step → String
  | writing => "writing-config"
  | checking => "validating-syntax"
  | lookingUp => "resolving-existing-table"
  | flushing => "flushing"
  | applying => "applying"
  | cleaning => "cleaning-up"
  | listing => "reading-table"

def all : List Step := [writing, checking, lookingUp, flushing, applying, cleaning, listing]

def ofText? (s : String) : Option Step := all.find? (·.text = s)

/-- How many steps at most come after this one on its node. -/
def later : Step → Nat
  | writing => 5
  | checking => 4
  | lookingUp => 3
  | flushing => 2
  | applying => 1
  | cleaning => 0
  | listing => 0

end Step

namespace Operation

def text : Operation → String
  | build => "build"
  | scrub => "scrub"
  | read => "read"

def all : List Operation := [build, scrub, read]

def ofText? (s : String) : Option Operation := all.find? (·.text = s)

def first : Operation → Step
  | build => .writing
  | scrub => .lookingUp
  | read => .listing

/-- The step after one that succeeded, by whether the table is loaded. -/
def next? : Operation → Step → Bool → Option Step
  | build, .writing, _ => some .checking
  | build, .checking, _ => some .lookingUp
  | build, .lookingUp, true => some .flushing
  | build, .lookingUp, false => some .applying
  | build, .flushing, _ => some .applying
  | build, .applying, _ => some .cleaning
  | scrub, .lookingUp, true => some .flushing
  | _, _, _ => none

theorem later_lt_of_next? {o : Operation} {s t : Step} {loaded : Bool}
    (h : o.next? s loaded = some t) : t.later < s.later := by
  cases o <;> cases s <;> cases loaded <;> cases h <;> decide

end Operation

/-- What the commands of an operation are made from. -/
structure Plan where
  target : Policy.Target
  directory : String
  document : String := ""

namespace Plan

def fileName (t : Policy.Target) : String :=
  "podfw_" ++ t.namespaceName ++ "_" ++ t.table ++ ".nft"

/-- A name below a directory; an empty directory adds nothing. -/
def below (directory name : String) : String :=
  if directory = "" ∨ directory.toList.getLast? = some '/' then directory ++ name
  else directory ++ "/" ++ name

/-- Where the document is staged on a node. -/
def path (p : Plan) : String := below p.directory (fileName p.target)

def nft (p : Plan) : String := "ip netns exec " ++ p.target.namespaceName ++ " nft"

def delimiter : String := "PODFW_EOF"

/-- A text with a line feed at its end. -/
def ended (s : String) : String := if s.toList.getLast? = some '\n' then s else s ++ "\n"

def command (p : Plan) : Step → String
  | .writing =>
    "cat > " ++ Shell.word p.path ++ " <<'" ++ delimiter ++ "'\n" ++ ended p.document ++
      delimiter ++ "\n"
  | .checking => p.nft ++ " --check --file " ++ Shell.word p.path
  | .lookingUp =>
    p.nft ++ " list tables | grep -qxF " ++ Shell.word ("table inet " ++ p.target.table)
  | .flushing => p.nft ++ " delete table inet " ++ p.target.table
  | .applying => p.nft ++ " --file " ++ Shell.word p.path
  | .cleaning => "rm --force " ++ Shell.word p.path
  | .listing => p.nft ++ " list table inet " ++ p.target.table

end Plan
end Deploy
end TwinWall
