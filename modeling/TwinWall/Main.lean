import TwinWall.Cli.Session

/-! The program. It takes the files that a command can need into a tree, carries the command out on the
tree, and writes down what has changed. It starts no other program itself. -/
namespace TwinWall
namespace Main

open Cli Audit

def textOf (p : Place) : String := "/" ++ "/".intercalate p

/-- The place that a path leads to if no name on it is a link. -/
def placeOf (here : Place) (path : String) : Place :=
  match Path.read path with
  | .error _ => here
  | .ok p =>
    p.names.foldl
      (fun q n => if n = "." then q else if n = ".." then q.dropLast else q ++ [n])
      (if p.absolute then [] else here)

/-- What is at a place on this machine. -/
def look (p : Place) : IO (Option Entry) := do
  try
    return some (.file (← IO.FS.readBinFile (textOf p)).toList)
  catch _ =>
    try
      if ← (← IO.FS.realPath (textOf p)).isDir then return some .directory else return none
    catch _ => return none

/-- Adds to a tree what is at a place and on the way to it. -/
def addPlace (f : Files) (p : Place) : IO Files := do
  let mut f := f
  for n in List.range (p.length + 1) do
    if let some e ← look (p.take n) then f := f.put (p.take n) e
  return f

def addPaths (f : Files) (paths : List String) : IO Files :=
  paths.foldlM (fun f path => addPlace f (placeOf f.here path)) f

/-- Writes what one tree has and another has not. -/
def writeChanges (before after : Files) : IO Unit := do
  for (p, e) in after.entries.reverse do
    if before.find? p ≠ some e then
      match e with
      | .directory => IO.FS.createDirAll (textOf p)
      | .file b => IO.FS.writeBinFile (textOf p) b.toByteArray

/-- The time now, which is that of a file just made. -/
def now : IO Moment := do
  let (_, path) ← IO.FS.createTempFile
  let time := (← path.metadata).modified
  IO.FS.removeFile path
  let days := (time.sec / 86400).toNat
  let second := (time.sec % 86400).toNat
  let date := (List.range days).foldl (fun d _ => d.next) ⟨1970, 1, 1⟩
  return ⟨date, second / 60, second % 60, time.nsec.toNat⟩

/-- A random identifier, with the marks of one. -/
def newRun : IO RunId := do
  let b ← IO.getRandomBytes 16
  let n := b.toList.foldl (fun n x => 256 * n + x.toNat) 0
  let r : RunId := BitVec.ofNat 128 n
  let version : RunId := BitVec.ofNat 128 (0x4000 <<< 64)
  let variant : RunId := BitVec.ofNat 128 (1 <<< 63)
  let cleared : RunId := BitVec.ofNat 128 ((0xf000 <<< 64) + (3 <<< 62))
  return (r &&& ~~~cleared) ||| version ||| variant

/-- A directory of the operator: one that is named, or one below home. -/
def directoryOf (name below : String) : IO String := do
  match ← IO.getEnv name with
  | some d => if d.startsWith "/" then return d ++ "/podfw"
  | none => pure ()
  return (← IO.getEnv "HOME").getD "" ++ below ++ "/podfw"

/-- Paths of files that a request is about. -/
def pathsOf (r : Request) (settings : Settings) : List String :=
  let policy :=
    match r.action with
    | .check p _ _ | .render p _ | .build p _ => [p]
    | _ => []
  policy ++ [r.topology.getD settings.topologyPath]

def run (words : List String) : IO Outcome := do
  let here := Path.namesOf (← IO.currentDir).toString.toList
  let s : Surroundings :=
    { settingsDirectory := ← directoryOf "XDG_DATA_HOME" "/.local/share"
      logDirectory := ← directoryOf "XDG_STATE_HOME" "/.local/state"
      behaviour := Program.noneInstalled { here }
      now := ← now
      run := ← newRun }
  let files ←
    match Request.read words with
    | .error _ => pure { here }
    | .ok r =>
      let path := r.settings.getD s.settingsPath
      let files ← addPaths { here } [path, Settings.draftPath path, s.logPath]
      addPaths files (pathsOf r (Settings.load files path))
  let (w, outcome) := Session.run s { files } words
  writeChanges files w.files
  return outcome

end Main
end TwinWall

def main (words : List String) : IO UInt32 := do
  let outcome ← TwinWall.Main.run words
  IO.print outcome.stdout
  IO.eprint outcome.stderr
  return UInt32.ofNat outcome.status
