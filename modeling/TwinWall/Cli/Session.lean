import TwinWall.Audit.Log
import TwinWall.Cli.Request
import TwinWall.Deploy.Listing
import TwinWall.Document.Compile
import TwinWall.Error
import TwinWall.Nft.Check

/-! Commands of the operator. A command works on files and on programs that it starts, and ends with a
status and two texts; every operation leaves an event in the audit log. -/
namespace TwinWall
namespace Cli

open Policy Audit

/-- Where a command is run: the directories for settings and for the log, how programs behave, and the
moment and identifier of the run. -/
structure Surroundings where
  settingsDirectory : String
  logDirectory : String
  behaviour : Program.Behaviour
  now : Moment
  run : RunId

namespace Surroundings

def settingsPath (s : Surroundings) : String := s.settingsDirectory ++ "/config.json"

def logPath (s : Surroundings) : String := s.logDirectory ++ "/audit.log"

end Surroundings

/-- What a command changes: the files, and the programs that were started. -/
structure World where
  files : Files
  calls : List Program.Call := []

structure Outcome where
  status : Nat := 0
  stdout : String := ""
  stderr : String := ""
deriving DecidableEq, Repr

namespace Outcome

def tick : String := "✓ "

def said (s : String) : Outcome := { stdout := s ++ "\n" }

/-- The report of an error, and what to do about a node that was not reached. -/
def errorText (e : Error) : String :=
  "Error: " ++ e.message ++ "\n" ++
    match e with
    | .deploy f =>
      if f.trouble.isChannel then
        "Could not reach " ++ f.node.host ++ "; check ssh access before retrying\n"
      else ""
    | _ => ""

/-- The end that an error makes, after what was said before it. -/
def failedAfter (stdout : String) (e : Error) : Outcome := ⟨e.status, stdout, errorText e⟩

def failed (e : Error) : Outcome := failedAfter "" e

end Outcome

namespace World

/-- Makes both directories, as far as that is possible. -/
def withDirectories (s : Surroundings) (f : Files) : Except FileError Unit × Files :=
  match f.makeDirectories s.settingsDirectory with
  | .error e => (.error e, f)
  | .ok f =>
    match f.makeDirectories s.logDirectory with
    | .error e => (.error e, f)
    | .ok f => (.ok (), f)

/-- Adds an event to the log. A log that cannot be written stops nothing. -/
def record (w : World) (s : Surroundings) (r : Report) : World :=
  match withDirectories s w.files with
  | (.error _, f) => { w with files := f }
  | (.ok (), f) =>
    match Log.append f s.logPath ⟨s.now, s.run, r⟩ with
    | .ok f => { w with files := f }
    | .error _ => { w with files := f }

end World

namespace Session

def targetOf (settings : Settings) (t : TargetWords) : Target :=
  ⟨t.namespaceName, t.table, t.priority.getD settings.priority⟩

/-- The policy in a file, made into a document. -/
def documentOf (w : World) (policy : String) (t : Target) : Except Error Document := do
  let spec ← Spec.load w.files policy
  (Document.build spec t).mapError .policy

def topologyOf (w : World) (r : Request) (settings : Settings) : Except Error Topology :=
  (Topology.load w.files (r.topology.getD settings.topologyPath)).mapError .topology

def overview (p : Ruleset) (d : Document) : String :=
  let count (c : FilterChain) : String := (Document.rulesOf c p.rules).length.repr
  Outcome.tick ++ "Policy valid: " ++ p.rules.length.repr ++ " rules (input " ++ count .input ++
    ", forward " ++ count .forward ++ ", output " ++ count .output ++ "), " ++
    p.sets.length.repr ++ " sets, " ++ p.mappings.length.repr ++ " NAT mappings\n" ++
    "  Document checksum: " ++ d.checksum ++ "\n"

/-- Has a sound document checked by nft too. -/
def checkWithNft (s : Surroundings) (w : World) (p : Ruleset) (d : Document) :
    World × Outcome :=
  let (verdict, calls) := Nft.check s.behaviour w.calls Nft.program d
  let w := { w with calls }
  match verdict with
  | .notRun reason => (w, .failedAfter (overview p d) (.internal reason))
  | .refused l =>
    (w.record s (.check p.rules.length (some ("; ".intercalate l)) false),
      .failedAfter (overview p d) (.refused l))
  | .accepted =>
    (w.record s (.check p.rules.length none true),
      { stdout := overview p d ++ Outcome.tick ++ "nft --check passed\n" })

def check (s : Surroundings) (w : World) (policy : String) (t : Target) (nft : Bool) :
    World × Outcome :=
  match Spec.load w.files policy with
  | .error e => (w, .failed e)
  | .ok spec =>
    match spec.check with
    | .error l =>
      let e : Error := .policy (.invalid l)
      (w.record s (.check spec.rules.length (some e.message) false), .failed e)
    | .ok p =>
      match Document.assemble p t with
      | .error e => (w, .failed (.policy (.assembly e)))
      | .ok d =>
        if nft then checkWithNft s w p d
        else (w.record s (.check p.rules.length none true), { stdout := overview p d })

def render (w : World) (policy : String) (t : Target) : World × Outcome :=
  match documentOf w policy t with
  | .error e => (w, .failed e)
  | .ok d => (w, { stdout := d.text })

/-- Reaches the nodes by way of programs that are started after those of the world. -/
def siteOf (s : Surroundings) (w : World) (settings : Settings) (t : Topology) : Deploy.Site :=
  ⟨settings.ssh.executor s.behaviour w.calls, t, settings.directory⟩

def withCalls (w : World) (settings : Settings) (calls : List Remote.Call) : World :=
  { w with calls := settings.ssh.calls w.calls calls }

/-- Records how an operation on both nodes ended, and tells it. -/
def conclude (s : Surroundings) (w : World) (event : Option String → Bool → Report)
    (message : String) (r : Except Deploy.Failure Deploy.Record) : World × Outcome :=
  match r with
  | .ok _ => (w.record s (event none true), .said (Outcome.tick ++ message))
  | .error f =>
    let e : Error := .deploy f
    (w.record s (event (some e.message) false), .failed e)

def build (s : Surroundings) (w : World) (r : Request) (settings : Settings) (policy : String)
    (t : Target) : World × Outcome :=
  match documentOf w policy t with
  | .error e => (w, .failed e)
  | .ok d =>
    match topologyOf w r settings with
    | .error e => (w, .failed e)
    | .ok top =>
      let site := siteOf s w settings top
      let (result, calls) := site.build d t []
      conclude s (withCalls w settings calls) (.build t d.checksum) (site.builtMessage t) result

def scrub (s : Surroundings) (w : World) (r : Request) (settings : Settings) (t : Target) :
    World × Outcome :=
  match topologyOf w r settings with
  | .error e => (w, .failed e)
  | .ok top =>
    let site := siteOf s w settings top
    let (result, calls) := site.scrub t []
    conclude s (withCalls w settings calls) (.scrub t) (site.scrubbedMessage t) result

/-- The table of a node below its name. -/
def nodeText (survey : Deploy.Survey) (n : Node) : String :=
  "# " ++ n.text ++ "\n" ++ (survey.table? n.host).getD "(unavailable)\n" ++ "\n"

def differenceText (survey : Deploy.Survey) (top : Topology) : String :=
  match survey.difference? top with
  | some d => "# diff " ++ top.enabledHost ++ " -> " ++ top.disabledHost ++ "\n" ++ d
  | none =>
    if survey.succeeded then Outcome.tick ++ "Both nodes hold identical tables\n" else ""

def read (s : Surroundings) (w : World) (r : Request) (settings : Settings) (t : Target)
    (difference : Bool) : World × Outcome :=
  match topologyOf w r settings with
  | .error e => (w, .failed e)
  | .ok top =>
    let (survey, calls) := (siteOf s w settings top).read t []
    let w := withCalls w settings calls
    (w.record s (.read t (survey.difference? top).isSome survey.succeeded),
      { status := if survey.succeeded then 0 else 1
        stdout := String.join (top.nodes.map (nodeText survey)) ++
          if difference then differenceText survey top else ""
        stderr := String.join ((survey.messages t).map (· ++ "\n")) })

/-- Writes the settings to the file they are read from. -/
def saveSettings (s : Surroundings) (w : World) (path : Option String) (settings : Settings) :
    Except FileError String × World :=
  let made : Except FileError Unit × Files :=
    match path with
    | some _ => (.ok (), w.files)
    | none => World.withDirectories s w.files
  let path := path.getD s.settingsPath
  match made with
  | (.error e, f) => (.error e, { w with files := f })
  | (.ok (), f) =>
    let (result, f) := settings.save f path
    (result.map fun _ => path, { w with files := f })

def config (s : Surroundings) (w : World) (r : Request) (settings : Settings) (save : Bool) :
    World × Outcome :=
  let shown := settings.toJson.pretty ++ "\n"
  if save then
    match saveSettings s w r.settings settings with
    | (.error e, w) => (w, .failed (.file e))
    | (.ok path, w) =>
      (w, { stdout := Outcome.tick ++ "Settings written to " ++ path ++ "\n" ++ shown })
  else (w, { stdout := shown })

def audit (s : Surroundings) (w : World) (count : Nat) : World × Outcome :=
  match Log.recent w.files s.logPath count with
  | .ok l => (w, { stdout := String.join (l.map fun e => e.summary ++ "\n") })
  | .error .notFound => (w, .said ("No audit log at " ++ s.logPath))
  | .error e => (w, .failed (.file e))

/-- Carries out what is asked for. -/
def answer (s : Surroundings) (w : World) (r : Request) : World × Outcome :=
  let settings := Settings.load w.files (r.settings.getD s.settingsPath)
  match r.action with
  | .check p t nft => check s w p (targetOf settings t) nft
  | .render p t => render w p (targetOf settings t)
  | .build p t => build s w r settings p (targetOf settings t)
  | .scrub t => scrub s w r settings (targetOf settings t)
  | .read t difference => read s w r settings (targetOf settings t) difference
  | .config save => config s w r settings save
  | .audit count => audit s w count

def usage : String :=
  "Usage: podfw [-c PATH] [-t PATH] [-v | -q] COMMAND\n\n" ++
    "  check POLICY NAMESPACE TABLE [-p PRIORITY] [--nft]\n" ++
    "  render POLICY NAMESPACE TABLE [-p PRIORITY]\n" ++
    "  build POLICY NAMESPACE TABLE [-p PRIORITY]\n" ++
    "  scrub NAMESPACE TABLE [-p PRIORITY]\n" ++
    "  read NAMESPACE TABLE [-p PRIORITY] [--diff]\n" ++
    "  config [--init]\n" ++
    "  audit [-n COUNT]\n"

/-- Reads the words of a command line and carries out what they ask for. -/
def run (s : Surroundings) (w : World) (words : List String) : World × Outcome :=
  match Request.read words with
  | .ok r => answer s w r
  | .error .helpAsked => (w, { stdout := usage })
  | .error .wrong => (w, { status := 2, stderr := usage })

end Session
end Cli
end TwinWall
