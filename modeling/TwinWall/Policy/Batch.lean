import TwinWall.Policy.RuleCheck
import TwinWall.Policy.SetCheck

/-! Checking of a whole policy. Every entry is checked; whether names are distinct and every set in use
is declared with the right type is looked at once all entries are sound. -/
namespace TwinWall
namespace Policy

open Json

/-- A policy as it is given: entries of any form, and the verdicts of the chains. -/
structure Spec where
  rules : List Value := []
  sets : List Value := []
  mappings : List Value := []
  defaults : Defaults := {}
deriving Inhabited

inductive Subject where
  | rule (index : Nat)
  | set (index : Nat)
  | mapping (index : Nat)
  | named (set : String)
deriving DecidableEq, Repr

def Subject.text : Subject → String
  | rule i => "rule[" ++ i.repr ++ "]"
  | set i => "set[" ++ i.repr ++ "]"
  | mapping i => "nat[" ++ i.repr ++ "]"
  | named s => "set \"" ++ s ++ "\""

inductive IssueKind where
  | invalid
  | duplicate
  | crossReference
deriving DecidableEq, Repr

def IssueKind.text : IssueKind → String
  | invalid => "invalid"
  | duplicate => "duplicate"
  | crossReference => "cross-reference"

inductive Issue where
  | invalid (subject : Subject) (defect : Defect)
  | duplicate (set : String)
  | undeclared (rule : Nat) (set : String)
  | wrongType (rule : Nat) (set : String) (found wanted : SetType)

namespace Issue

def subject : Issue → Subject
  | invalid s _ => s
  | duplicate n => .named n
  | undeclared i _ => .rule i
  | wrongType i _ _ _ => .rule i

def kind : Issue → IssueKind
  | invalid .. => .invalid
  | duplicate _ => .duplicate
  | undeclared .. => .crossReference
  | wrongType .. => .crossReference

def message : Issue → String
  | invalid _ d => d.message
  | duplicate n => "set name \"" ++ n ++ "\" is declared more than once"
  | undeclared _ n => n ++ " not found in the supplied sets"
  | wrongType _ n found wanted =>
    "set " ++ n ++ " has type " ++ found.text ++ " but this use requires " ++ wanted.text

def text (i : Issue) : String :=
  i.subject.text ++ " (" ++ i.kind.text ++ "): " ++ i.message

end Issue

/-- All issues in the order in which they were found. -/
def reportText (l : List Issue) : String :=
  "Policy validation failed with " ++ l.length.repr ++ " issue(s):\n" ++
    String.join (l.map fun i => "  - " ++ i.text ++ "\n")

def countKind (k : IssueKind) (l : List Issue) : Nat := l.countP (·.kind = k)

namespace Batch

/-- The defects of entries, numbered from a given index. -/
def issuesFrom {α : Type} (subject : Nat → Subject) : Nat → List (Checked α) → List Issue
  | _, [] => []
  | i, c :: r => c.defects.map (.invalid (subject i)) ++ issuesFrom subject (i + 1) r

def sound {α : Type} (l : List (Checked α)) : List α := l.filterMap Except.toOption

/-- One issue for every set whose name an earlier one has. -/
def repeatedNames : List String → List NamedSet → List Issue
  | _, [] => []
  | seen, s :: r =>
    if s.name ∈ seen then .duplicate s.name :: repeatedNames seen r
    else repeatedNames (s.name :: seen) r

/-- The last set of a name. -/
def declared? (sets : List NamedSet) (name : String) : Option NamedSet :=
  sets.reverse.find? (·.name = name)

def useIssue? (sets : List NamedSet) (rule : Nat) (use : String × SetType) : Option Issue :=
  match declared? sets use.1 with
  | none => some (.undeclared rule use.1)
  | some s => if s.type = use.2 then none else some (.wrongType rule use.1 s.type use.2)

def useIssuesFrom (sets : List NamedSet) : Nat → List Rule → List Issue
  | _, [] => []
  | i, r :: rs => r.setUses.filterMap (useIssue? sets i) ++ useIssuesFrom sets (i + 1) rs

def referenceIssues (rules : List Rule) (sets : List NamedSet) : List Issue :=
  repeatedNames [] sets ++ useIssuesFrom sets 0 rules

end Batch

namespace Spec

def entryIssues (s : Spec) : List Issue :=
  Batch.issuesFrom .rule 0 (s.rules.map Rule.check) ++
    Batch.issuesFrom .set 0 (s.sets.map NamedSet.check) ++
    Batch.issuesFrom .mapping 0 (s.mappings.map Mapping.check)

/-- The entries that are sound, in order. -/
def soundPart (s : Spec) : Ruleset :=
  { rules := Batch.sound (s.rules.map Rule.check)
    sets := Batch.sound (s.sets.map NamedSet.check)
    mappings := Batch.sound (s.mappings.map Mapping.check)
    defaults := s.defaults }

def issues (s : Spec) : List Issue :=
  match s.entryIssues with
  | [] => Batch.referenceIssues s.soundPart.rules s.soundPart.sets
  | l => l

/-- The checked policy, or every issue. -/
def check (s : Spec) : Except (List Issue) Ruleset :=
  match s.issues with
  | [] => .ok s.soundPart
  | l => .error l

end Spec
end Policy
end TwinWall
