import TwinWall.Json.Reader
import TwinWall.Text.Blank
import TwinWall.Text.Lines
import TwinWall.Text.Search

/-! Errors that nft reports, taken from what it writes: either one JSON value with a list of errors, or
an error a line. -/
namespace TwinWall
namespace Nft

def errorMark : List Char := ['E', 'r', 'r', 'o', 'r', ':', ' ']

def programMark : List Char := ['n', 'f', 't', ':', ' ']

/-- A line between blanks without the marks in front of it. -/
def unmarked (line : List Char) : List Char :=
  Text.dropAll programMark (Text.dropAll errorMark (Text.trimmed line))

def plainErrors (report : List Char) : List String :=
  ((Text.linesOf report).filter fun l => !(Text.trimmed l).isEmpty).map fun l =>
    String.ofList (unmarked l)

def messageOf? (v : Json.Value) : Option String := (v.get? "message").bind Json.Value.string?

/-- The list of errors of a report that is a JSON value and has one. -/
def errorList? (report : String) : Option (List Json.Value) :=
  match Json.read report with
  | .ok v => (v.get? "errors").bind Json.Value.array?
  | .error _ => none

def errors (report : String) : List String :=
  match errorList? report with
  | some l => l.filterMap messageOf?
  | none => plainErrors report.toList

end Nft
end TwinWall
