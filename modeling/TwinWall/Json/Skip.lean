import TwinWall.Json.Reader

/-! Passing over a value that nobody asked for. Its nesting has no limit and its numbers and
characters are not computed, so more texts pass than can be read. -/
namespace TwinWall
namespace Json
namespace Skip

/-- The rest of a string after its opening quote. -/
def string : Nat → List Char → Except Fault (List Char)
  | 0, s => .error (.before .endInString s)
  | _ + 1, [] => .error (.before .endInString [])
  | n + 1, c :: r =>
    if c = '"' then .ok r
    else if c = '\\' then
      match r with
      | [] => .error (.before .endInString [])
      | d :: r' =>
        if (shortEscape? d).isSome then string n r'
        else if d = 'u' then do
          let (_, r) ← hexUnit r'
          string n r
        else .error (.next .badEscape (d :: r'))
    else if c.toNat < 0x20 then .error (.before .controlCharacter (c :: r))
    else string n r

def exponent (s : List Char) : Except Fault (List Char) :=
  let s := (exponentSign s).2
  match spanDigits s with
  | ([], _) => .error (.next .badNumber s)
  | (_, r) => .ok r

def fraction (s : List Char) : Except Fault (List Char) :=
  match spanDigits s with
  | ([], _) => .error (.next .badNumber s)
  | (_, []) => .ok []
  | (_, c :: r) => if isExponentMark c then exponent r else .ok (c :: r)

def afterDigits : List Char → Except Fault (List Char)
  | [] => .ok []
  | c :: r =>
    if c = '.' then fraction r else if isExponentMark c then exponent r else .ok (c :: r)

/-- A number after its sign. -/
def number : List Char → Except Fault (List Char)
  | [] => .error (.before .badNumber [])
  | c :: r =>
    if c = '0' then
      match spanDigits r with
      | ([], _) => afterDigits r
      | _ => .error (.next .badNumber r)
    else
      match spanDigits (c :: r) with
      | ([], _) => .error (.next .badNumber (c :: r))
      | (_, r) => afterDigits r

/-- A container that has been entered and not left. -/
inductive Frame where
  | list
  | object
deriving DecidableEq, Repr

def Frame.close : Frame → Char
  | list => ']'
  | object => '\x7d'

def Frame.ended : Frame → Cause
  | list => .endInList
  | object => .endInObject

def Frame.unended : Frame → Cause
  | list => .noItemEnd
  | object => .noMemberEnd

/-- What may come next: a value, what follows a value, or what follows an opening mark. -/
inductive Turn where
  | value
  | after
  | opened
deriving DecidableEq, Repr

/-- A key with its colon, in front of the value of an object's member. -/
def key (frames : List Frame) (s : List Char) : Except Fault (List Char) :=
  match frames with
  | .object :: _ =>
    match skipGaps s with
    | [] => .error (.before .endInObject [])
    | c :: r =>
      if c = '"' then string (r.length + 1) r >>= colon
      else .error (.next .keyNotString (c :: r))
  | _ => .ok s

/-- A value without parts, or none if a container opens. -/
def scalar (c : Char) (r : List Char) : Option (Except Fault (List Char)) :=
  if c = 'n' then some (word ['u', 'l', 'l'] r)
  else if c = 't' then some (word ['r', 'u', 'e'] r)
  else if c = 'f' then some (word ['a', 'l', 's', 'e'] r)
  else if c = '-' then some (number r)
  else if c.isDigit then some (number (c :: r))
  else if c = '"' then some (string (r.length + 1) r)
  else if c = '[' ∨ c = '\x7b' then none
  else some (.error (.next .noValue (c :: r)))

/-- One turn after another until no container is open; the first argument bounds the turns. -/
def run : Nat → Turn → List Frame → List Char → Except Fault (List Char)
  | 0, _, _, s => .error (.before .endInValue s)
  | n + 1, .value, frames, s =>
    match skipGaps s with
    | [] => .error (.before .endInValue [])
    | c :: r =>
      match scalar c r with
      | some (.ok r) => run n .after frames r
      | some (.error f) => .error f
      | none => run n .opened ((if c = '[' then .list else .object) :: frames) r
  | _ + 1, .after, [], s => .ok s
  | n + 1, .after, f :: frames, s =>
    match skipGaps s with
    | [] => .error (.before f.ended [])
    | c :: r =>
      if c = ',' then key (f :: frames) r >>= run n .value (f :: frames)
      else if c = f.close then run n .after frames r
      else .error (.next f.unended (c :: r))
  | n + 1, .opened, frames, s =>
    match frames, skipGaps s with
    | [], s => .ok s
    | f :: _, [] => .error (.before f.ended [])
    | f :: frames, c :: r =>
      if c = f.close then run n .after frames r
      else key (f :: frames) (c :: r) >>= run n .value (f :: frames)

end Skip

/-- Passes over one value; each turn but the last takes a character. -/
def skipValue (s : List Char) : Except Fault (List Char) :=
  Skip.run (2 * s.length + 2) .value [] s

end Json
end TwinWall
