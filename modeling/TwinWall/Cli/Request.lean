import TwinWall.Cli.Arguments
import TwinWall.Settings

/-! What the operator asks for on the command line. -/
namespace TwinWall
namespace Cli

/-- A target whose priority may be left to the settings. -/
structure TargetWords where
  namespaceName : String
  table : String
  priority : Option Int
deriving DecidableEq, Repr

inductive Action where
  | check (policy : String) (target : TargetWords) (nft : Bool)
  | render (policy : String) (target : TargetWords)
  | build (policy : String) (target : TargetWords)
  | scrub (target : TargetWords)
  | read (target : TargetWords) (difference : Bool)
  | config (save : Bool)
  | audit (count : Nat)
deriving DecidableEq, Repr

structure Request where
  settings : Option String
  topology : Option String
  action : Action
deriving DecidableEq, Repr

namespace Request

def settingsOption : Opt := { name := "config", letter := some 'c', hasValue := true }

def topologyOption : Opt := { name := "topology", letter := some 't', hasValue := true }

def verboseOption : Opt := { name := "verbose", letter := some 'v' }

def quietOption : Opt := { name := "quiet", letter := some 'q' }

def priorityOption : Opt :=
  { name := "priority", letter := some 'p', hasValue := true, takesNegative := true }

def nftOption : Opt := { name := "nft" }

def differenceOption : Opt := { name := "diff" }

def saveOption : Opt := { name := "init" }

def countOption : Opt := { name := "count", letter := some 'n', hasValue := true }

/-- Options that can be given before and behind the name of a command. -/
def everywhere : List Opt :=
  [settingsOption, topologyOption, verboseOption, quietOption, helpOption]

def optionsOf : String → List Opt
  | "check" => [priorityOption, nftOption]
  | "render" => [priorityOption]
  | "build" => [priorityOption]
  | "scrub" => [priorityOption]
  | "read" => [priorityOption, differenceOption]
  | "config" => [saveOption]
  | _ => [countOption]

def commands : List String := ["check", "render", "build", "scrub", "read", "config", "audit"]

def versionOption : Opt := { name := "version", letter := some 'V' }

def topForm : Form :=
  { options := everywhere ++ [versionOption], commands := commands ++ ["help"] }

def commandForm (command : String) : Form := { options := everywhere ++ optionsOf command }

/-- A path that is not empty. -/
def pathOf (s : String) : Except Misuse String := if s = "" then .error .wrong else .ok s

def defaultCount : Nat := 20

def greatestCount : Nat := 0xffffffffffffffff

def priorityOf (s : String) : Except Misuse Int :=
  match Decimal.signed? s.toList with
  | some n =>
    if Settings.leastPriority ≤ n ∧ n ≤ Settings.greatestPriority then .ok n else .error .wrong
  | none => .error .wrong

def countOf (s : String) : Except Misuse Nat :=
  match Decimal.unsigned? s.toList with
  | some n => if n ≤ greatestCount then .ok n else .error .wrong
  | none => .error .wrong

def given {α : Type} (l : Level) (o : Opt) (f : String → Except Misuse α) :
    Except Misuse (Option α) :=
  match l.value? o with
  | some s => (f s).map some
  | none => .ok none

def targetOf (l : Level) (namespaceName table : String) : Except Misuse TargetWords := do
  .ok ⟨namespaceName, table, ← given l priorityOption priorityOf⟩

def actionOf (command : String) (l : Level) : Except Misuse Action :=
  match command, l.words with
  | "check", [p, n, t] => do
    .ok (.check (← pathOf p) (← targetOf l n t) (l.has nftOption))
  | "render", [p, n, t] => do .ok (.render (← pathOf p) (← targetOf l n t))
  | "build", [p, n, t] => do .ok (.build (← pathOf p) (← targetOf l n t))
  | "scrub", [n, t] => do .ok (.scrub (← targetOf l n t))
  | "read", [n, t] => do .ok (.read (← targetOf l n t) (l.has differenceOption))
  | "config", [] => .ok (.config (l.has saveOption))
  | "audit", [] => do .ok (.audit ((← given l countOption countOf).getD defaultCount))
  | _, _ => .error .wrong

/-- Only one of two options on one level. -/
def checkVerbosity (l : Level) : Except Misuse Unit :=
  if l.has verboseOption && l.has quietOption then .error .wrong else .ok ()

/-- Reads all words. An option behind the name of the command goes before one in front of it. -/
def read (words : List String) : Except Misuse Request := do
  let top ← topForm.scan words {}
  if top.has versionOption then .error .helpAsked
  match top.command with
  | none => .error .wrong
  | some ("help", r) => if r.all (commands.contains ·) then .error .helpAsked else .error .wrong
  | some (command, r) =>
    let l ← (commandForm command).scan r {}
    let action ← actionOf command l
    checkVerbosity l
    checkVerbosity top
    let settings ← given l settingsOption pathOf
    let settingsBefore ← given top settingsOption pathOf
    let topology ← given l topologyOption pathOf
    let topologyBefore ← given top topologyOption pathOf
    .ok ⟨settings.or settingsBefore, topology.or topologyBefore, action⟩

end Request
end Cli
end TwinWall
