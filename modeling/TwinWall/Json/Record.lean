import TwinWall.Text.Shown
import TwinWall.Json.Skip

/-! Reading of records with known fields. A record is an object, whose unknown members are passed
over, or a list of its fields in their order, of which the last may be left out. -/
namespace TwinWall
namespace Json

/-- The word behind its first letter, and then the fault. -/
def afterWord (w : List Char) (c : Cause) (s : List Char) : Fault :=
  match word w s with
  | .ok r => .before c r
  | .error f => f

/-- The fault of a value that is of another type than expected. A value without parts is read first,
and a fault in it comes before. -/
def mismatch (expected : String) (s : List Char) : Fault :=
  match s with
  | [] => .before .endInValue []
  | c :: r =>
    let found (what : String) := Cause.wrongType what expected
    let number (n : Except Fault (Number × List Char)) : Fault :=
      match n with
      | .ok (.whole n, r) => .before (found ("integer `" ++ Decimal.ofInt n ++ "`")) r
      | .ok (.binary x, r) =>
        .before (found ("floating point `" ++ (Number.binary x).text ++ "`")) r
      | .error f => f
    if c = 'n' then afterWord ['u', 'l', 'l'] (found "null") r
    else if c = 't' then afterWord ['r', 'u', 'e'] (found "boolean `true`") r
    else if c = 'f' then afterWord ['a', 'l', 's', 'e'] (found "boolean `false`") r
    else if c = '-' then number (numberRest true r)
    else if c.isDigit then number (numberRest false (c :: r))
    else if c = '"' then
      match stringRest r with
      | .ok (t, r) => .before (found ("string " ++ Text.shown t)) r
      | .error f => f
    else if c = '[' then .before (found "sequence") (c :: r)
    else if c = '\x7b' then .before (found "map") (c :: r)
    else .next .noValue (c :: r)

def stringOf (expected : String) : Reader String := fun s =>
  match skipGaps s with
  | '"' :: r => stringRest r
  | r => .error (mismatch expected r)

def boolOf : Reader Bool := fun s =>
  match skipGaps s with
  | 't' :: r => (word ['r', 'u', 'e'] r).map fun r => (true, r)
  | 'f' :: r => (word ['a', 'l', 's', 'e'] r).map fun r => (false, r)
  | r => .error (mismatch "a boolean" r)

def optional {α : Type} (reader : Reader α) : Reader (Option α) := fun s =>
  match skipGaps s with
  | 'n' :: r => (word ['u', 'l', 'l'] r).map fun r => (none, r)
  | r => (reader r).map fun p => (some p.1, p.2)

/-- A whole number between two bounds. -/
def wholeOf (expected : String) (low high : Int) : Reader Int := fun s =>
  let check (p : Number × List Char) (bad : Fault) : Except Fault (Int × List Char) :=
    match p with
    | (.whole n, r) =>
      if low ≤ n ∧ n ≤ high then .ok (n, r)
      else .error (.before (.wrongValue ("integer `" ++ Decimal.ofInt n ++ "`") expected) r)
    | (.binary _, _) => .error bad
  match skipGaps s with
  | '-' :: r => numberRest true r >>= fun p => check p (mismatch expected ('-' :: r))
  | c :: r =>
    if c.isDigit then numberRest false (c :: r) >>= fun p => check p (mismatch expected (c :: r))
    else .error (mismatch expected (c :: r))
  | [] => .error (mismatch expected [])

def listOf {α : Type} (item : Nat → Reader α) (depth : Nat) : Reader (List α) := fun s =>
  match skipGaps s with
  | '[' :: r =>
    match depth with
    | 0 => .error (.next .tooDeep ('[' :: r))
    | d + 1 => items (item d) (r.length + 1) true r
  | r => .error (mismatch "a sequence" r)

/-- One of some words, standing for a value, behind the quote that opens it. -/
def variantRest {α : Type} (words : List (String × α)) : Reader α := fun s => do
  let (t, r) ← stringRest s
  match words.lookup t with
  | some x => .ok (x, r)
  | none => .error (.before (.unknownWord t (words.map (·.1))) r)

/-- A word as the key of an object. An object without a key lacks a value. -/
def variantKey {α : Type} (words : List (String × α)) : Reader α := fun s =>
  match skipGaps s with
  | '"' :: r => variantRest words r
  | [] => .error (.before .endInObject [])
  | '\x7d' :: r => .error (.next .noValue ('\x7d' :: r))
  | r => .error (.next .keyNotString r)

/-- A word by itself, or as the only key of an object with the member null. -/
def wordOf {α : Type} (words : List (String × α)) (depth : Nat) : Reader α := fun s =>
  match skipGaps s with
  | [] => .error (.before .endInValue [])
  | '"' :: r => variantRest words r
  | '\x7b' :: r =>
    match depth with
    | 0 => .error (.next .tooDeep ('\x7b' :: r))
    | _ + 1 => do
      let (x, r) ← variantKey words r
      let r ← colon r
      let r ← match skipGaps r with
        | 'n' :: r => word ['u', 'l', 'l'] r
        | r => .error (mismatch "unit" r)
      match skipGaps r with
      | '\x7d' :: r => .ok (x, r)
      | [] => .error (.before .endInObject [])
      | r => .error (.before .noValue r)
  | r => .error (.next .noValue r)

/-- A field with its reader, which gets the depth left and the record read so far. -/
structure RecordField (σ : Type) where
  key : String
  reader : Nat → σ → Reader σ

namespace RecordField

def find? {σ : Type} (fields : List (RecordField σ)) (k : String) : Option (RecordField σ) :=
  fields.find? (·.key = k)

/-- Where a repeated field is reported: behind its key, its gaps, and a brace that closes. -/
def repeatedAt (s : List Char) : List Char :=
  match skipGaps s with
  | '\x7d' :: r => r
  | r => r

/-- One member of a record, with the keys that have been read. -/
def member {σ : Type} (fields : List (RecordField σ)) (depth : Nat) (st : σ × List String) (k : String)
    (s : List Char) : Except Fault ((σ × List String) × List Char) :=
  match find? fields k with
  | some f =>
    if k ∈ st.2 then .error (.before (.repeatedField k) (repeatedAt s))
    else do
      let s ← colon s
      let (x, s) ← f.reader depth st.1 s
      .ok ((x, k :: st.2), s)
  | none => do
    let s ← colon s
    let s ← skipValue s
    .ok (st, s)

/-- The fields of a list in their order, and the number of them that are there. -/
def inOrder {σ : Type} (depth : Nat) : List (RecordField σ) → Nat → σ → Reader (σ × Nat)
  | [], n, st, s => .ok ((st, n), s)
  | f :: fs, n, st, s => do
    let (more, r) ← nextItem (n == 0) s
    if more then
      let (st, r) ← f.reader depth st r
      inOrder depth fs (n + 1) st r
    else .ok ((st, n), r)

end RecordField

/-- Reads a record into a start value, whose fields stay as they are where none is given. Fields
without which there is no record are named in order. -/
def recordOf {σ : Type} (expected : String) (fields : List (RecordField σ)) (required : List String)
    (start : σ) (depth : Nat) : Reader σ := fun s =>
  match skipGaps s with
  | '[' :: r =>
    match depth with
    | 0 => .error (.next .tooDeep ('[' :: r))
    | d + 1 => do
      let ((st, n), r) ← RecordField.inOrder d fields 0 start r
      let r ← closeList r
      match (fields.drop n).find? fun f => required.contains f.key with
      | some f =>
        .error (.before (.tooShort (fields.findIdx (·.key = f.key))
          (expected ++ " with " ++ fields.length.repr ++ " elements")) r)
      | none => .ok (st, r)
  | '\x7b' :: r =>
    match depth with
    | 0 => .error (.next .tooDeep ('\x7b' :: r))
    | d + 1 => do
      let ((st, seen), r) ← members (RecordField.member fields d) (r.length + 1) true (start, []) r
      match required.find? fun k => !seen.contains k with
      | some k => .error (.before (.missingField k) r)
      | none => .ok (st, r)
  | r => .error (mismatch expected r)

end Json
end TwinWall
