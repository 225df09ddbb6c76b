import TwinWall.Json.Lexeme

/-! Reading of whole JSON texts. Containers may be nested to a bounded depth, which is also what the
reading recurses on. -/
namespace TwinWall
namespace Json

/-- Goes to the next item of a list, or to the bracket that closes it. -/
def nextItem (first : Bool) (s : List Char) : Except Fault (Bool × List Char) :=
  match skipGaps s with
  | [] => .error (.before .endInList [])
  | c :: r =>
    if c = ']' then .ok (false, c :: r)
    else if first then .ok (true, c :: r)
    else if c = ',' then
      match skipGaps r with
      | [] => .error (.before .endInValue [])
      | d :: r' => if d = ']' then .error (.next .trailingComma (d :: r')) else .ok (true, d :: r')
    else .error (.next .noItemEnd (c :: r))

/-- Leaves a list, of which nothing but the closing bracket may be left. -/
def closeList (s : List Char) : Except Fault (List Char) :=
  match skipGaps s with
  | [] => .error (.before .endInList [])
  | c :: r =>
    if c = ']' then .ok r
    else if c = ',' then
      match skipGaps r with
      | [] => .error (.before .trailingText [])
      | d :: r' =>
        .error (.next (if d = ']' then .trailingComma else .trailingText) (d :: r'))
    else .error (.next .trailingText (c :: r))

/-- Items up to the closing bracket, which is read too; the first argument bounds their number. -/
def items {α : Type} (item : Reader α) : Nat → Bool → Reader (List α)
  | 0, _, s => .error (.before .endInList s)
  | n + 1, first, s => do
    let (more, r) ← nextItem first s
    if more then
      let (x, r) ← item r
      let (xs, r) ← items item n false r
      .ok (x :: xs, r)
    else
      let r ← closeList r
      .ok ([], r)

/-- Goes behind the next key of an object, or to the brace that closes it. -/
def nextKey (first : Bool) (s : List Char) : Except Fault (Option String × List Char) :=
  match skipGaps s with
  | [] => .error (.before .endInObject [])
  | c :: r =>
    if c = '\x7d' then .ok (none, c :: r)
    else if first then key (c :: r)
    else if c = ',' then
      match skipGaps r with
      | [] => .error (.before .endInValue [])
      | d :: r' =>
        if d = '\x7d' then .error (.next .trailingComma (d :: r')) else key (d :: r')
    else .error (.next .noMemberEnd (c :: r))
where
  key : List Char → Except Fault (Option String × List Char)
    | [] => .error (.before .endInValue [])
    | c :: r =>
      if c = '"' then (stringRest r).map fun p => (some p.1, p.2)
      else .error (.next .keyNotString (c :: r))

def colon (s : List Char) : Except Fault (List Char) :=
  match skipGaps s with
  | [] => .error (.before .endInObject [])
  | c :: r => if c = ':' then .ok r else .error (.next .noColon (c :: r))

/-- Leaves an object at its closing brace. -/
def closeObject (s : List Char) : Except Fault (List Char) :=
  match skipGaps s with
  | [] => .error (.before .endInObject [])
  | c :: r =>
    if c = '\x7d' then .ok r
    else .error (.next (if c = ',' then .trailingComma else .trailingText) (c :: r))

/-- Members up to the closing brace, each handed over behind its key; the first argument bounds
their number. -/
def members {σ : Type} (member : σ → String → Reader σ) : Nat → Bool → σ → Reader σ
  | 0, _, _, s => .error (.before .endInObject s)
  | n + 1, first, st, s => do
    let (k, r) ← nextKey first s
    match k with
    | none =>
      let r ← closeObject r
      .ok (st, r)
    | some k =>
      let (st, r) ← member st k r
      members member n false st r

/-- Reads a value that may hold containers nested to the given depth. -/
def value (depth : Nat) (s : List Char) : Except Fault (Value × List Char) :=
  match skipGaps s with
  | [] => .error (.before .endInValue [])
  | c :: r =>
    if c = 'n' then (word ['u', 'l', 'l'] r).map fun r => (.null, r)
    else if c = 't' then (word ['r', 'u', 'e'] r).map fun r => (.bool true, r)
    else if c = 'f' then (word ['a', 'l', 's', 'e'] r).map fun r => (.bool false, r)
    else if c = '-' then (numberRest true r).map fun p => (.number p.1, p.2)
    else if c.isDigit then (numberRest false (c :: r)).map fun p => (.number p.1, p.2)
    else if c = '"' then (stringRest r).map fun p => (.string p.1, p.2)
    else if c = '[' then
      match depth with
      | 0 => .error (.next .tooDeep (c :: r))
      | d + 1 => (items (value d) (r.length + 1) true r).map fun p => (.array p.1, p.2)
    else if c = '\x7b' then
      match depth with
      | 0 => .error (.next .tooDeep (c :: r))
      | d + 1 =>
        (members (fun m k s => do
          let s ← colon s
          let (v, s) ← value d s
          .ok (Members.insert k v m, s)) (r.length + 1) true [] r).map
          fun p => (.object p.1, p.2)
    else .error (.next .noValue (c :: r))

/-- How deep containers may be nested. -/
def depthLimit : Nat := 127

/-- Nothing but gaps may follow what has been read. -/
def finish {α : Type} : α × List Char → Except Fault α
  | (x, s) =>
    match skipGaps s with
    | [] => .ok x
    | c :: r => .error (.next .trailingText (c :: r))

def readAll {α : Type} (reader : Reader α) (text : String) : Except Fault α :=
  reader text.toList >>= finish

def read (text : String) : Except Fault Value := readAll (value depthLimit) text

end Json
end TwinWall
