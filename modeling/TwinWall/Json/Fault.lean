import TwinWall.Json.Number
import TwinWall.Text.Utf8

/-! What can be wrong with a JSON text and where. A place is counted in octets, from the text that
was left when the fault was met. -/
namespace TwinWall
namespace Json

inductive Cause where
  | endInValue
  | endInString
  | endInList
  | endInObject
  | noColon
  | noItemEnd
  | noMemberEnd
  | noWord
  | noValue
  | badEscape
  | badNumber
  | outOfRange
  | controlCharacter
  | keyNotString
  | loneSurrogate
  | halfSurrogate
  | trailingComma
  | trailingText
  | tooDeep
  | wrongType (found expected : String)
  | wrongValue (found expected : String)
  | unknownWord (found : String) (known : List String)
  | repeatedField (name : String)
  | missingField (name : String)
  | tooShort (length : Nat) (expected : String)
  | unreadable (reason : String)
deriving DecidableEq, Repr

/-- The text ends early, breaks the grammar, or does not fit what is read from it. -/
inductive Kind where
  | early
  | malformed
  | unfit
deriving DecidableEq, Repr

namespace Cause

def kind : Cause → Kind
  | endInValue | endInString | endInList | endInObject => .early
  | wrongType .. | wrongValue .. | unknownWord .. | repeatedField _ | missingField _ | tooShort ..
  | unreadable _ => .unfit
  | _ => .malformed

def ticked (s : String) : String := "`" ++ s ++ "`"

def oneOf : List String → String
  | [] => "there are no variants"
  | [a] => ticked a
  | [a, b] => ticked a ++ " or " ++ ticked b
  | l => "one of " ++ ", ".intercalate (l.map ticked)

def message : Cause → String
  | endInValue => "EOF while parsing a value"
  | endInString => "EOF while parsing a string"
  | endInList => "EOF while parsing a list"
  | endInObject => "EOF while parsing an object"
  | noColon => "expected `:`"
  | noItemEnd => "expected `,` or `]`"
  | noMemberEnd => "expected `,` or `\x7d`"
  | noWord => "expected ident"
  | noValue => "expected value"
  | badEscape => "invalid escape"
  | badNumber => "invalid number"
  | outOfRange => "number out of range"
  | controlCharacter => "control character (\\u0000-\\u001F) found while parsing a string"
  | keyNotString => "key must be a string"
  | loneSurrogate => "lone leading surrogate in hex escape"
  | halfSurrogate => "unexpected end of hex escape"
  | trailingComma => "trailing comma"
  | trailingText => "trailing characters"
  | tooDeep => "recursion limit exceeded"
  | wrongType found expected => "invalid type: " ++ found ++ ", expected " ++ expected
  | wrongValue found expected => "invalid value: " ++ found ++ ", expected " ++ expected
  | unknownWord found known => "unknown variant " ++ ticked found ++ ", expected " ++ oneOf known
  | repeatedField name => "duplicate field " ++ ticked name
  | missingField name => "missing field " ++ ticked name
  | tooShort length expected => "invalid length " ++ length.repr ++ ", expected " ++ expected
  | unreadable reason => reason

end Cause

/-- A cause, the text left, and the number of its octets that belong to the fault. -/
structure Fault where
  cause : Cause
  left : List Char
  ahead : Nat
deriving DecidableEq, Repr

namespace Fault

/-- A fault before the next character. -/
def before (c : Cause) (s : List Char) : Fault := ⟨c, s, 0⟩

/-- A fault of the next octet, or at the end if there is none. -/
def next (c : Cause) (s : List Char) : Fault := ⟨c, s, if s.isEmpty then 0 else 1⟩

/-- Line from one, and octets of the line up to the fault. -/
def place (text : List Char) (f : Fault) : Nat × Nat :=
  let n := Text.octets text - Text.octets f.left + f.ahead
  let seen := (text.flatMap String.utf8EncodeChar).take n
  (seen.count 10 + 1, (seen.reverse.takeWhile (· ≠ 10)).length)

def describe (text : List Char) (f : Fault) : String :=
  let (line, column) := f.place text
  f.cause.message ++ " at line " ++ line.repr ++ " column " ++ column.repr

end Fault

/-- A reader takes the text that is left and gives a value with the text left after it. -/
abbrev Reader (α : Type) := List Char → Except Fault (α × List Char)

end Json
end TwinWall
