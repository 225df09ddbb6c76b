import TwinWall.Decimal.Natural
import TwinWall.Text.Blank

/-! Moments of time in the calendar, to the nanosecond. A minute may have a second numbered 60. They are
written without an offset from UTC, and read with any. -/
namespace TwinWall
namespace Audit

structure Date where
  year : Int
  month : Nat
  day : Nat
deriving DecidableEq, Repr

namespace Date

def isLeap (year : Int) : Bool := year % 4 = 0 && (year % 100 != 0 || year % 400 = 0)

def daysIn (year : Int) (month : Nat) : Nat :=
  if month = 2 then if isLeap year then 29 else 28
  else if month ∈ [4, 6, 9, 11] then 30
  else 31

def firstYear : Int := -262143

def lastYear : Int := 262142

def isValid (d : Date) : Bool :=
  firstYear ≤ d.year && d.year ≤ lastYear && 1 ≤ d.month && d.month ≤ 12 && 1 ≤ d.day &&
    d.day ≤ daysIn d.year d.month

def next (d : Date) : Date :=
  if d.day < daysIn d.year d.month then { d with day := d.day + 1 }
  else if d.month < 12 then ⟨d.year, d.month + 1, 1⟩
  else ⟨d.year + 1, 1, 1⟩

def previous (d : Date) : Date :=
  if 1 < d.day then { d with day := d.day - 1 }
  else if 1 < d.month then ⟨d.year, d.month - 1, daysIn d.year (d.month - 1)⟩
  else ⟨d.year - 1, 12, 31⟩

end Date

structure Moment where
  date : Date
  minute : Nat
  second : Nat
  nanosecond : Nat
deriving DecidableEq, Repr

/-- Digits with zeros in front, up to a width. -/
def padded (width n : Nat) : String :=
  String.ofList (List.leftpad width '0' n.repr.toList)

/-- Four digits, with a sign unless they are enough. -/
def yearText (year : Int) : String :=
  if 0 ≤ year ∧ year ≤ 9999 then padded 4 year.toNat
  else (if year < 0 then "-" else "+") ++ padded 4 year.natAbs

def Date.text (d : Date) : String :=
  yearText d.year ++ "-" ++ padded 2 d.month ++ "-" ++ padded 2 d.day

namespace Moment

def minutesOfDay : Nat := 1440

def clock (m : Moment) : String :=
  padded 2 (m.minute / 60) ++ ":" ++ padded 2 (m.minute % 60) ++ ":" ++ padded 2 m.second

/-- Three, six or nine places, as many as are needed. -/
def fraction (n : Nat) : String :=
  if n = 0 then ""
  else if n % 1000000 = 0 then "." ++ padded 3 (n / 1000000)
  else if n % 1000 = 0 then "." ++ padded 6 (n / 1000)
  else "." ++ padded 9 n

def text (m : Moment) : String := m.date.text ++ "T" ++ m.clock ++ fraction m.nanosecond ++ "Z"

/-- Date and clock only. -/
def brief (m : Moment) : String := m.date.text ++ " " ++ m.clock

/-- The moment that a clock shows which is ahead of UTC by some minutes. -/
def utc (m : Moment) (ahead : Int) : Moment :=
  let n := (m.minute : Int) - ahead
  if n < 0 then { m with date := m.date.previous, minute := (n + minutesOfDay).toNat }
  else if n < minutesOfDay then { m with minute := n.toNat }
  else { m with date := m.date.next, minute := (n - minutesOfDay).toNat }

/-- At most so many digits, of which there is one at least. -/
def digitsUpTo (most : Nat) (s : List Char) : Option (Nat × List Char) :=
  let taken := (s.take most).takeWhile Char.isDigit
  (Decimal.digits? taken).map fun n => (n, s.drop taken.length)

def numberFrom (most : Nat) (s : List Char) : Option (Nat × List Char) :=
  digitsUpTo most (Text.dropBlanks s)

/-- Four digits at most, or any number of them after a sign. -/
def yearFrom (s : List Char) : Option (Int × List Char) :=
  match Text.dropBlanks s with
  | '-' :: r => (digitsUpTo r.length r).map fun p => (-(p.1 : Int), p.2)
  | '+' :: r => (digitsUpTo r.length r).map fun p => ((p.1 : Int), p.2)
  | r => (digitsUpTo 4 r).map fun p => ((p.1 : Int), p.2)

def skipMark (c : Char) (s : List Char) : Option (List Char) :=
  match Text.dropBlanks s with
  | d :: r => if d = c then some r else none
  | [] => none

def dateFrom (s : List Char) : Option (Date × List Char) := do
  let (y, s) ← yearFrom s
  let (m, s) ← numberFrom 2 (← skipMark '-' s)
  let (d, s) ← numberFrom 2 (← skipMark '-' s)
  some (⟨y, m, d⟩, s)

/-- Nanoseconds from the digits behind a point. Those after the ninth do not count. -/
def nanoseconds : List Char → Option (Nat × List Char)
  | '.' :: r => do
    let digits := r.takeWhile Char.isDigit
    let n ← Decimal.digits? (digits.take 9)
    some (n * Nat.pow 10 (9 - digits.length), r.drop digits.length)
  | s => some (0, s)

def separator : List Char → Option (List Char)
  | 'T' :: r | 't' :: r | ' ' :: r => some r
  | _ => none

def isOffsetGap (c : Char) : Bool := c = ':' || Text.isBlank c

def twoDigits : List Char → Option (Nat × List Char)
  | a :: b :: r => (Decimal.digits? [a, b]).map fun n => (n, r)
  | _ => none

/-- Minutes from hours and minutes, less than a day. -/
def offsetMinutes (s : List Char) : Option (Nat × List Char) := do
  let (h, s) ← twoDigits s
  let (m, s) ← twoDigits (s.dropWhile isOffsetGap)
  if h < 24 ∧ m < 60 then some (60 * h + m, s) else none

def isUtc (s : List Char) : Bool := (s.take 3).map Char.toUpper = ['U', 'T', 'C']

/-- How many minutes a clock is ahead of UTC. -/
def offset (s : List Char) : Option (Int × List Char) :=
  if isUtc s then some (0, s.drop 3)
  else
    match s with
    | 'Z' :: r | 'z' :: r => some (0, r)
    | '+' :: r => (offsetMinutes r).map fun p => ((p.1 : Int), p.2)
    | '-' :: r | '\u2212' :: r => (offsetMinutes r).map fun p => (-(p.1 : Int), p.2)
    | _ => none

def read? (text : String) : Option Moment := do
  let (d, s) ← dateFrom text.toList
  let (h, s) ← numberFrom 2 (← separator s)
  let (min, s) ← numberFrom 2 (← skipMark ':' s)
  let (sec, s) ← numberFrom 2 (← skipMark ':' s)
  let (nano, s) ← nanoseconds s
  let (ahead, s) ← offset (Text.dropBlanks s)
  if d.isValid ∧ h < 24 ∧ min < 60 ∧ sec ≤ 60 ∧ Text.allBlank s then
    let m := utc ⟨d, 60 * h + min, sec, nano⟩ ahead
    if m.date.isValid then some m else none
  else none

end Moment
end Audit
end TwinWall
