import TwinWall.Decimal.Natural

/-! Words of a command line, taken apart into options with their values, the name of a command and what is
left. Every option is given at most once on its level. -/
namespace TwinWall
namespace Cli

inductive Misuse where
  | wrong
  | helpAsked
deriving DecidableEq, Repr

structure Opt where
  name : String
  letter : Option Char := none
  hasValue : Bool := false
  takesNegative : Bool := false
deriving DecidableEq, Repr

/-- What may stand on one level: options, and either the name of a command or plain words. -/
structure Form where
  options : List Opt
  commands : List String := []
deriving Repr

def helpOption : Opt := { name := "help", letter := some 'h' }

/-- What was found on one level, and the words behind the name of a command. -/
structure Level where
  given : List (String × String) := []
  words : List String := []
  command : Option (String × List String) := none
deriving DecidableEq, Repr

namespace Level

def has (l : Level) (o : Opt) : Bool := l.given.any (·.1 = o.name)

def value? (l : Level) (o : Opt) : Option String := l.given.lookup o.name

def give (l : Level) (o : Opt) (v : String) : Except Misuse Level :=
  if l.has o then .error .wrong else .ok { l with given := (o.name, v) :: l.given }

end Level

/-- Whether a word can be the value of the option before it. One that looks like an option cannot,
except for a negative number where one is taken. -/
def canBeValue (o : Opt) (word : String) : Bool :=
  match word.toList with
  | '-' :: c :: r => o.takesNegative && (Decimal.digits? (c :: r)).isSome
  | _ => true

namespace Form

def byName? (f : Form) (name : String) : Option Opt := f.options.find? (·.name = name)

def byLetter? (f : Form) (c : Char) : Option Opt := f.options.find? (·.letter = some c)

/-- An option by its name, with a value behind an equals sign if there is one. -/
def named (f : Form) (s : List Char) (l : Level) : Except Misuse (Level × Option Opt) :=
  let name := String.ofList (s.takeWhile (· ≠ '='))
  match f.byName? name, s.dropWhile (· ≠ '=') with
  | none, _ => .error .wrong
  | some o, [] =>
    if o.name = helpOption.name then .error .helpAsked
    else if o.hasValue then .ok (l, some o)
    else (l.give o "").map fun l => (l, none)
  | some o, _ :: v =>
    if o.hasValue then (l.give o (String.ofList v)).map fun l => (l, none) else .error .wrong

/-- Options by their letters. The first one that has a value takes the rest for it, if there is any. -/
def lettered (f : Form) : List Char → Level → Except Misuse (Level × Option Opt)
  | [], l => .ok (l, none)
  | c :: r, l =>
    match f.byLetter? c with
    | none => .error .wrong
    | some o =>
      if o.name = helpOption.name then .error .helpAsked
      else if o.hasValue then
        match r with
        | [] => .ok (l, some o)
        | '=' :: v => (l.give o (String.ofList v)).map fun l => (l, none)
        | v => (l.give o (String.ofList v)).map fun l => (l, none)
      else (l.give o "").bind (lettered f r)

/-- One word that is no value: the options in it, and the one that still needs a value. -/
def word (f : Form) (w : String) (l : Level) : Except Misuse (Level × Option Opt) :=
  match w.toList with
  | '-' :: '-' :: r => f.named r l
  | '-' :: c :: r => f.lettered (c :: r) l
  | _ => .ok ({ l with words := l.words ++ [w] }, none)

def isPlain (w : String) : Bool := w.toList.head? ≠ some '-' || w = "-"

/-- All words of a level. Behind two hyphens all words are plain ones. -/
def scan (f : Form) : List String → Level → Except Misuse Level
  | [], l => .ok l
  | w :: r, l =>
    if w = "--" then
      if f.commands.isEmpty ∨ r.isEmpty then .ok { l with words := l.words ++ r } else .error .wrong
    else if isPlain w ∧ !f.commands.isEmpty then
      if w ∈ f.commands then .ok { l with command := some (w, r) } else .error .wrong
    else
      match f.word w l with
      | .error e => .error e
      | .ok (l, none) => scan f r l
      | .ok (l, some o) =>
        match r with
        | [] => .error .wrong
        | v :: r =>
          if v ≠ "--" ∧ canBeValue o v then
            match l.give o v with
            | .error e => .error e
            | .ok l => scan f r l
          else .error .wrong

end Form
end Cli
end TwinWall
