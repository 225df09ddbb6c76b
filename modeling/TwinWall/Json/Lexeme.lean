import TwinWall.Json.Fault
import TwinWall.Json.Value
import TwinWall.Text.Hex

/-! The smallest parts of JSON texts: blanks, words, strings and numbers. -/
namespace TwinWall
namespace Json

def isGap (c : Char) : Bool := c = ' ' || c = '\n' || c = '\t' || c = '\r'

def skipGaps (s : List Char) : List Char := s.dropWhile isGap

@[simp] theorem skipGaps_nil : skipGaps [] = [] := rfl

theorem skipGaps_cons {c : Char} (h : isGap c = false) (s : List Char) :
    skipGaps (c :: s) = c :: s := by
  simp [skipGaps, h]

/-- The rest of a word whose first letter has been read. -/
def word : List Char → List Char → Except Fault (List Char)
  | [], s => .ok s
  | _ :: _, [] => .error (.before .endInValue [])
  | e :: es, c :: r => if c = e then word es r else .error (.next .noWord (c :: r))

/-- Four hexadecimal digits. -/
def hexUnit (s : List Char) : Except Fault (Nat × List Char) :=
  if Text.octets (s.take 4) < 4 then .error (.before .endInString [])
  else
    match (s.take 4).mapM Text.hexValue? with
    | some [a, b, c, d] => .ok (((a * 16 + b) * 16 + c) * 16 + d, s.drop 4)
    | _ => .error ⟨.badEscape, s, 4⟩

def isLeading (n : Nat) : Bool := 0xd800 ≤ n && n ≤ 0xdbff

def isTrailing (n : Nat) : Bool := 0xdc00 ≤ n && n ≤ 0xdfff

/-- A certain character, which the second half of a surrogate pair starts with. -/
def pairMark (c : Char) : List Char → Except Fault (List Char)
  | [] => .error (.before .endInString [])
  | d :: r => if d = c then .ok r else .error (.next .halfSurrogate (d :: r))

/-- A character by its number, which takes a pair of units from 0x10000 on. -/
def unicodeEscape (s : List Char) : Except Fault (Char × List Char) := do
  let (n, r) ← hexUnit s
  if isTrailing n then .error (.before .loneSurrogate r)
  else if isLeading n then
    let r ← pairMark '\\' r
    let r ← pairMark 'u' r
    let (m, r) ← hexUnit r
    if isTrailing m then .ok (Char.ofNat ((n - 0xd800) * 1024 + (m - 0xdc00) + 0x10000), r)
    else .error (.before .loneSurrogate r)
  else .ok (Char.ofNat n, r)

def shortEscape? : Char → Option Char
  | '"' => some '"'
  | '\\' => some '\\'
  | '/' => some '/'
  | 'b' => some '\x08'
  | 'f' => some '\x0c'
  | 'n' => some '\n'
  | 'r' => some '\r'
  | 't' => some '\t'
  | _ => none

/-- What follows a backslash. -/
def escapeBody : List Char → Except Fault (Char × List Char)
  | [] => .error (.before .endInString [])
  | c :: r =>
    match shortEscape? c with
    | some d => .ok (d, r)
    | none => if c = 'u' then unicodeEscape r else .error (.next .badEscape (c :: r))

/-- The rest of a string after its opening quote; the first argument bounds the characters. -/
def stringBody : Nat → List Char → Except Fault (List Char × List Char)
  | 0, s => .error (.before .endInString s)
  | _ + 1, [] => .error (.before .endInString [])
  | n + 1, c :: r =>
    if c = '"' then .ok ([], r)
    else if c = '\\' then do
      let (d, r) ← escapeBody r
      let (t, r) ← stringBody n r
      .ok (d :: t, r)
    else if c.toNat < 0x20 then .error (.next .controlCharacter (c :: r))
    else do
      let (t, r) ← stringBody n r
      .ok (c :: t, r)

def stringRest (s : List Char) : Except Fault (String × List Char) := do
  let (t, r) ← stringBody (s.length + 1) s
  .ok (String.ofList t, r)

/-- The digits in front and what follows them. -/
def spanDigits : List Char → List Nat × List Char
  | [] => ([], [])
  | c :: r =>
    match Decimal.digit? c with
    | some d => ((d :: (spanDigits r).1), (spanDigits r).2)
    | none => ([], c :: r)

/-- How many digits are read until their value exceeds 31 bits. -/
def untilTooLarge : Nat → List Nat → Nat
  | _, [] => 0
  | n, d :: ds => if 2147483647 < 10 * n + d then 1 else untilTooLarge (10 * n + d) ds + 1

def inRange (f : Fault) (n : Option Number) (s : List Char) : Except Fault (Number × List Char) :=
  match n with
  | some n => .ok (n, s)
  | none => .error f

def exponentSign : List Char → Bool × List Char
  | '+' :: r => (false, r)
  | '-' :: r => (true, r)
  | s => (false, s)

/-- What follows the mark of an exponent. -/
def exponentPart (negative : Bool) (digits fraction : List Nat) (s : List Char) :
    Except Fault (Number × List Char) :=
  let (down, s) := exponentSign s
  match spanDigits s with
  | ([], _) => .error (.next (if s.isEmpty then .endInValue else .badNumber) s)
  | (ds, r) =>
    let e : Int := Decimal.valueFrom 0 ds
    inRange ⟨.outOfRange, s, untilTooLarge 0 ds⟩
      (Number.ofParts negative digits fraction (if down then -e else e)) r

def isExponentMark (c : Char) : Bool := c = 'e' || c = 'E'

/-- What follows a point. -/
def fractionPart (negative : Bool) (digits : List Nat) (s : List Char) :
    Except Fault (Number × List Char) :=
  match spanDigits s with
  | ([], _) => .error (.next (if s.isEmpty then .endInValue else .badNumber) s)
  | (fs, c :: r) =>
    if isExponentMark c then exponentPart negative digits fs r
    else inRange (.before .outOfRange (c :: r)) (Number.ofParts negative digits fs 0) (c :: r)
  | (fs, []) => inRange (.before .outOfRange []) (Number.ofParts negative digits fs 0) []

/-- What follows the digits before a point. -/
def afterDigits (negative : Bool) (digits : List Nat) :
    List Char → Except Fault (Number × List Char)
  | [] => inRange (.before .outOfRange []) (Number.ofDigits negative digits) []
  | c :: r =>
    if c = '.' then fractionPart negative digits r
    else if isExponentMark c then exponentPart negative digits [] r
    else inRange (.before .outOfRange (c :: r)) (Number.ofDigits negative digits) (c :: r)

/-- A number after its sign. No digit may follow a leading zero. -/
def numberRest (negative : Bool) : List Char → Except Fault (Number × List Char)
  | [] => .error (.before .endInValue [])
  | c :: r =>
    if c = '0' then
      match spanDigits r with
      | ([], _) => afterDigits negative [0] r
      | _ => .error (.next .badNumber r)
    else
      match spanDigits (c :: r) with
      | ([], _) => .error (.next .badNumber (c :: r))
      | (ds, r) => afterDigits negative ds r

end Json
end TwinWall
