import TwinWall.Files

/-! Starting of other programs on this machine. How a program ends is a matter of all calls before. -/
namespace TwinWall
namespace Program

structure Call where
  program : String
  arguments : List String
  input : String
deriving DecidableEq, Repr

/-- A program that was started may not take its input, for another reason than that it has ended. That its
end cannot be waited for is left out. -/
inductive Ending where
  | notStarted (reason : String)
  | unfed (reason : String)
  | exited (status : Nat) (stdout stderr : List UInt8)
  | killed (stdout stderr : List UInt8) (signal : Nat := 9) (dumped : Bool := false)
deriving DecidableEq, Repr

/-- The names of the signals from 1 on. -/
def signalNames : List String :=
  ["SIGHUP", "SIGINT", "SIGQUIT", "SIGILL", "SIGTRAP", "SIGABRT", "SIGBUS", "SIGFPE", "SIGKILL", "SIGUSR1",
    "SIGSEGV", "SIGUSR2", "SIGPIPE", "SIGALRM", "SIGTERM", "SIGSTKFLT", "SIGCHLD", "SIGCONT", "SIGSTOP",
    "SIGTSTP", "SIGTTIN", "SIGTTOU", "SIGURG", "SIGXCPU", "SIGXFSZ", "SIGVTALRM", "SIGPROF", "SIGWINCH",
    "SIGIO", "SIGPWR", "SIGSYS"]

def signalName? : Nat → Option String
  | 0 => none
  | n + 1 => signalNames[n]?

/-- A signal by its number and, if it has one, its name. -/
def signalText (signal : Nat) (dumped : Bool) : String :=
  "signal: " ++ signal.repr ++ ((signalName? signal).elim "" fun name => " (" ++ name ++ ")") ++
    if dumped then " (core dumped)" else ""

/-- How a call ends, after the calls that were made before it. -/
abbrev Behaviour := List Call → Call → Ending

def hasNul (s : String) : Bool := s.toList.contains '\x00'

namespace Call

/-- A call with a NUL in its program or an argument can be given to no program. -/
def isPassable (c : Call) : Bool := !(hasNul c.program || c.arguments.any hasNul)

def shownText (s : String) : String := if hasNul s then "<string-with-nul>" else s

/-- Program and arguments with a mark in the place of those that cannot be given. -/
def shown (c : Call) : List String := (c.program :: c.arguments).map shownText

end Call

/-- Makes a call after others, and tells which calls there are then. -/
def start (behaviour : Behaviour) (before : List Call) (c : Call) : Ending × List Call :=
  if c.isPassable then (behaviour before c, before ++ [c])
  else (.notStarted "nul byte found in provided data", before)

/-- Why a program that is not installed cannot be started. A file that is none cannot be executed. -/
def absence (files : Files) (program : String) : FileError :=
  if program.toList.contains '/' then
    match files.readOctets program with
    | .ok _ | .error .isDirectory => .denied
    | .error e => e
  else .notFound

/-- No program is there, whichever is called. -/
def noneInstalled (files : Files) : Behaviour :=
  fun _ c => .notStarted (absence files c.program).message

end Program
end TwinWall
