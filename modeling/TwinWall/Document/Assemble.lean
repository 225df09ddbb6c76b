import TwinWall.Digest
import TwinWall.Document.Table
import TwinWall.Policy.Batch
import TwinWall.Text.Utf8

/-! Assembly of a checked policy into the document for a target. A document is made only if both names
of the target are sound and every set in use is declared. -/
namespace TwinWall

/-- A table ready to be deployed. -/
structure Document where
  table : Document.Table
deriving DecidableEq

namespace Document

open Policy

def name (d : Document) : String := d.table.name

def text (d : Document) : String := d.table.text

def checksum (d : Document) : String := Digest.hex (Text.Utf8.encode d.text)

inductive AssemblyError where
  | target (errors : List NameError)
  | undeclared (sets : List String)
deriving DecidableEq

def AssemblyError.message : AssemblyError → String
  | target l => "; ".intercalate (l.map NameError.message)
  | undeclared l => "rules reference undeclared sets: " ++ ", ".intercalate l

/-- Uses of sets that are not declared, in the order of rules. -/
def undeclaredUses (p : Ruleset) : List String :=
  (p.rules.flatMap fun r => r.setUses.map (·.1)).filter fun n => !p.sets.any (·.name = n)

def assemble (p : Ruleset) (target : Target) : Except AssemblyError Document :=
  match target.check with
  | .error e => .error (.target e)
  | .ok _ =>
    match undeclaredUses p with
    | [] => .ok ⟨tableOf p target⟩
    | l => .error (.undeclared l)

inductive BuildError where
  | invalid (issues : List Issue)
  | assembly (error : AssemblyError)

/-- Checks a policy and assembles it. -/
def build (s : Spec) (target : Target) : Except BuildError Document :=
  match s.check with
  | .error l => .error (.invalid l)
  | .ok p => (assemble p target).mapError .assembly

end Document
end TwinWall
