import TwinWall.Files
import TwinWall.Json.Printer
import TwinWall.Json.Record
import TwinWall.Remote.Ssh

/-! Settings for reaching the nodes. A file that cannot be read, or does not fit, means the settings that
hold without one; what a file leaves out is filled in. -/
namespace TwinWall

open Json

structure Settings where
  topologyPath : String := "/opt/robot/config.json"
  user : String := "robot"
  program : String := "ssh"
  timeout : Nat := 10
  directory : String := "/tmp"
  priority : Int := 0
deriving DecidableEq, Repr

namespace Settings

def greatestTimeout : Nat := 0xffffffffffffffff

def leastPriority : Int := -0x80000000

def greatestPriority : Int := 0x7fffffff

/-- A field that holds a text. -/
def textField (key expected : String) (f : Settings → String → Settings) : RecordField Settings :=
  ⟨key, fun _ st s => (stringOf expected s).map fun p => (f st p.1, p.2)⟩

/-- A field that holds a whole number between two bounds. -/
def wholeField (key expected : String) (low high : Int) (f : Settings → Int → Settings) :
    RecordField Settings :=
  ⟨key, fun _ st s => (wholeOf expected low high s).map fun p => (f st p.1, p.2)⟩

def fields : List (RecordField Settings) :=
  [textField "topology_path" "path string" fun st x => { st with topologyPath := x },
    textField "ssh_user" "a string" fun st x => { st with user := x },
    textField "ssh_program" "a string" fun st x => { st with program := x },
    wholeField "connect_timeout_secs" "u64" 0 greatestTimeout fun st x =>
      { st with timeout := x.toNat },
    textField "temp_dir" "path string" fun st x => { st with directory := x },
    wholeField "default_priority" "i32" leastPriority greatestPriority fun st x =>
      { st with priority := x }]

def read (text : String) : Except Fault Settings :=
  readAll (recordOf "struct AppConfig" fields [] {} depthLimit) text

/-- The record with its fields in their own order. -/
def toJson (s : Settings) : Value :=
  .object [("topology_path", .string s.topologyPath), ("ssh_user", .string s.user),
    ("ssh_program", .string s.program), ("connect_timeout_secs", .ofNat s.timeout),
    ("temp_dir", .string s.directory), ("default_priority", .ofInt s.priority)]

def ofText (text : String) : Settings :=
  match read text with
  | .ok s => s
  | .error _ => {}

def load (f : Files) (path : String) : Settings :=
  match f.readText path with
  | .ok text => ofText text
  | .error _ => {}

def ssh (s : Settings) : Remote.Ssh := ⟨s.program, s.user, s.timeout⟩

/-- A name up to its last point. A point that begins it does not count. -/
def nameStem (name : List Char) : List Char :=
  let back := name.reverse.dropWhile (· ≠ '.')
  match back with
  | '.' :: r => if r.isEmpty then name else r.reverse
  | _ => name

/-- Whether a part of a path, which is not the first, says nothing. -/
def isIdle (part : List Char) : Bool := part = [] || part = ['.']

/-- The parts of a path from the last on, without those at the end that say nothing. -/
def withoutIdle : List (List Char) → List (List Char)
  | p :: q :: r => if isIdle p then withoutIdle (q :: r) else p :: q :: r
  | l => l

/-- Where settings are written before they take the place of a file: beside it, under its name with
another ending. A path without a name stays as it is. -/
def draftPath (path : String) : String :=
  match withoutIdle (path.toList.splitOn '/').reverse with
  | name :: above =>
    if isIdle name || name = ['.', '.'] then path
    else
      String.ofList (['/'].intercalate ((nameStem name :: above).reverse)) ++ ".json.tmp"
  | [] => path

/-- The steps of a saving, which writes a draft and moves it to its place, so that no half of it is ever seen
there. -/
inductive SaveStep where
  | opening
  | writing
  | syncing
  | moving
deriving DecidableEq, Repr

/-- A step that fails for a reason that does not lie in the tree of files. If it is the writing, the first
octets are written by then. -/
structure SaveFault where
  step : SaveStep
  written : Nat
  error : FileError
deriving DecidableEq, Repr

namespace SaveStep

def all : List SaveStep := [opening, writing, syncing, moving]

/-- What a step does to the tree. A draft is empty when it is opened, and a renaming is done at once. -/
def perform (path : String) (octets : List UInt8) (f : Files) : SaveStep → Except FileError Files
  | opening => f.write (draftPath path) []
  | writing => f.write (draftPath path) octets
  | syncing => .ok f
  | moving => f.rename (draftPath path) path

/-- What a step does that then fails. -/
def breakOff (path : String) (octets : List UInt8) (written : Nat) (f : Files) :
    SaveStep → Except FileError Files
  | writing => f.write (draftPath path) (octets.take written)
  | _ => .ok f

/-- Why a step failed, as it is told. A disk without room for the renaming has a message of its own. -/
def reason : SaveStep → FileError → FileError
  | moving, .noSpace => .diskFull
  | _, e => e

/-- One step. If it fails, the tree it leaves is told too. -/
def run (path : String) (octets : List UInt8) (fault : Option SaveFault) (f : Files) (step : SaveStep) :
    Except (FileError × Files) Files :=
  match fault.filter (·.step = step) with
  | none => (step.perform path octets f).mapError fun e => (step.reason e, f)
  | some x => do
    let g ← (step.breakOff path octets x.written f).mapError fun e => (step.reason e, f)
    .error (step.reason x.error, g)

end SaveStep

/-- Saves settings to a file. What is left of a failed attempt is told too. -/
def save (s : Settings) (f : Files) (path : String) (fault : Option SaveFault := none) :
    Except FileError Unit × Files :=
  match SaveStep.all.foldlM (SaveStep.run path (Text.Utf8.encode s.toJson.pretty) fault) f with
  | .ok f => (.ok (), f)
  | .error (e, f) => (.error e, f)

end Settings
end TwinWall
