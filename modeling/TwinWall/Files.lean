import TwinWall.Text.Utf8

/-! A tree of files below one root, with a working directory. A place is the list of names that lead
to it, and whatever leads to another place is a directory. -/
namespace TwinWall

inductive FileError where
  | notFound
  | denied
  | busy
  | taken
  | notDirectory
  | isDirectory
  | noSpace
  | nameTooLong
  | nulInName
  | notText
  | diskFull
deriving DecidableEq, Repr

def FileError.message : FileError → String
  | notFound => "No such file or directory (os error 2)"
  | denied => "Permission denied (os error 13)"
  | busy => "Device or resource busy (os error 16)"
  | taken => "File exists (os error 17)"
  | notDirectory => "Not a directory (os error 20)"
  | isDirectory => "Is a directory (os error 21)"
  | noSpace => "No space left on device (os error 28)"
  | nameTooLong => "File name too long (os error 36)"
  | nulInName => "file name contained an unexpected NUL byte"
  | notText => "stream did not contain valid UTF-8"
  | diskFull => "Disk full: cannot save configuration. Free up space and try again."

abbrev Place := List String

/-- A path as it is written. One that ends in a slash asks for a directory. -/
structure Path where
  absolute : Bool
  names : List String
  wantsDirectory : Bool
deriving DecidableEq, Repr

namespace Path

def longest : Nat := 4095

def longestName : Nat := 255

def namesOf (s : List Char) : List String :=
  ((s.splitOn '/').filter (!·.isEmpty)).map String.ofList

def read (s : String) : Except FileError Path :=
  let cs := s.toList
  if cs.contains '\x00' then .error .nulInName
  else if cs.isEmpty then .error .notFound
  else if longest < Text.octets cs then .error .nameTooLong
  else .ok ⟨cs.head? == some '/', namesOf cs, cs.getLast? == some '/'⟩

end Path

inductive Entry where
  | file (content : List UInt8)
  | directory
deriving DecidableEq

structure Files where
  entries : List (Place × Entry) := []
  here : Place := []

namespace Files

/-- What is at a place, which is a directory also if only something below it is known. -/
def find? (f : Files) (p : Place) : Option Entry :=
  match f.entries.lookup p with
  | some e => some e
  | none =>
    if p.isEmpty || f.entries.any fun e => p.isPrefixOf e.1 then some .directory else none

def put (f : Files) (p : Place) (e : Entry) : Files :=
  { f with entries := (p, e) :: f.entries.filter fun q => q.1 != p }

def drop (f : Files) (p : Place) : Files :=
  { f with entries := f.entries.filter fun q => q.1 != p }

@[simp] theorem find?_put_self (f : Files) (p : Place) (e : Entry) : (f.put p e).find? p = some e := by
  simp [find?, put]

/-- One name further, which is possible only in a directory. -/
def enter (f : Files) (p : Place) (name : String) : Except FileError Place :=
  match f.find? p with
  | none => .error .notFound
  | some (.file _) => .error .notDirectory
  | some .directory =>
    if name = "." then .ok p
    else if name = ".." then .ok p.dropLast
    else if Path.longestName < Text.octets name.toList then .error .nameTooLong
    else .ok (p ++ [name])

def locate (f : Files) (path : Path) : Except FileError Place :=
  path.names.foldlM (enter f) (if path.absolute then [] else f.here)

def readOctets (f : Files) (path : String) : Except FileError (List UInt8) := do
  let path ← Path.read path
  let p ← f.locate path
  match f.find? p with
  | none => .error .notFound
  | some .directory => .error .isDirectory
  | some (.file b) => if path.wantsDirectory then .error .notDirectory else .ok b

def readText (f : Files) (path : String) : Except FileError String := do
  match Text.Utf8.decode? (← f.readOctets path) with
  | some s => .ok s
  | none => .error .notText

/-- The place of a file that can be written, with what is in it now. -/
def writable (f : Files) (path : String) : Except FileError (Place × List UInt8) := do
  let path ← Path.read path
  let p ← f.locate path
  if path.wantsDirectory then .error .isDirectory
  else
    match f.find? p with
    | none => .ok (p, [])
    | some (.file b) => .ok (p, b)
    | some .directory => .error .isDirectory

/-- Makes the file hold some octets and nothing else. -/
def write (f : Files) (path : String) (octets : List UInt8) : Except FileError Files := do
  let (p, _) ← f.writable path
  .ok (f.put p (.file octets))

def append (f : Files) (path text : String) : Except FileError Files := do
  let (p, b) ← f.writable path
  .ok (f.put p (.file (b ++ Text.Utf8.encode text)))

/-- Moves a file to another place, in one step and over a file that is there. -/
def rename (f : Files) (source target : String) : Except FileError Files := do
  let p ← f.locate (← Path.read source)
  let path ← Path.read target
  let q ← f.locate path
  match f.find? p with
  | some (.file b) =>
    if path.names.isEmpty || path.names.getLast? ∈ [some ".", some ".."] then .error .busy
    else if path.wantsDirectory then .error .notDirectory
    else if f.find? q = some .directory then .error .isDirectory
    else .ok ((f.drop p).put q (.file b))
  | _ => .error .notFound

/-- Makes a directory and those that lead to it, as far as they are missing. -/
def makeDirectories (f : Files) (path : String) : Except FileError Files := do
  let path ← Path.read path
  let start := if path.absolute then [] else f.here
  let make (f : Files) (n : Nat) : Except FileError Files :=
    let p := start ++ path.names.take n
    match f.find? p with
    | none => .ok (f.put p .directory)
    | some .directory => .ok f
    | some (.file _) => .error (if n = path.names.length then .taken else .notDirectory)
  (List.range' 1 path.names.length).foldlM make f

/-- Names in a directory, in order. -/
def names (f : Files) (p : Place) : List String :=
  let below := f.entries.filterMap fun e =>
    if p.isPrefixOf e.1 then (e.1.drop p.length).head? else none
  (below.mergeSort fun a b => decide (a ≤ b)).eraseDups

end Files
end TwinWall
