import TwinWall.Text.Blank
import TwinWall.Text.Utf8

/-! Names of interfaces and of sets, namespaces and tables. Both consist of ASCII letters, digits, the
point, the hyphen and the underscore, and have a greatest length. -/
namespace TwinWall
namespace Policy

inductive NameError where
  | empty (kind : String)
  | blank (kind name : String)
  | tooLong (kind name : String) (limit : Nat)
  | reserved (name : String)
  | badCharacter (kind name : String)
deriving DecidableEq, Repr

namespace NameError

def message : NameError → String
  | empty kind => kind ++ " must not be empty"
  | blank kind name => kind ++ " \"" ++ name ++ "\" must not contain whitespace"
  | tooLong kind name limit =>
    kind ++ " \"" ++ name ++ "\" is too long (max " ++ limit.repr ++ " characters)"
  | reserved name => "Invalid interface name \"" ++ name ++ "\""
  | badCharacter kind name => kind ++ " \"" ++ name ++ "\" contains invalid characters"

end NameError

def isNameChar (c : Char) : Bool := c.isAlphanum || c = '.' || c = '-' || c = '_'

def interfaceKind : String := "Interface name"

def interfaceLimit : Nat := 15

def identifierLimit : Nat := 64

/-- The length is that of the name in octets. -/
def checkInterface (name : String) : Except NameError String :=
  let s := name.toList
  if s.any Text.isBlank then .error (.blank interfaceKind name)
  else if interfaceLimit < Text.octets s then
    .error (.tooLong interfaceKind name interfaceLimit)
  else if s = [] ∨ s = ['.'] ∨ s = ['.', '.'] then .error (.reserved name)
  else if s.all isNameChar then .ok name
  else .error (.badCharacter interfaceKind name)

def checkIdentifier (kind name : String) : Except NameError String :=
  let s := name.toList
  if s = [] then .error (.empty kind)
  else if s.any Text.isBlank then .error (.blank kind name)
  else if identifierLimit < Text.octets s then .error (.tooLong kind name identifierLimit)
  else if s.all isNameChar then .ok name
  else .error (.badCharacter kind name)

theorem eq_of_checkInterface {name out : String} (h : checkInterface name = .ok out) :
    out = name := by
  simp only [checkInterface] at h
  repeat' split at h
  all_goals first | contradiction | exact (Except.ok.inj h).symm

theorem eq_of_checkIdentifier {kind name out : String} (h : checkIdentifier kind name = .ok out) :
    out = name := by
  simp only [checkIdentifier] at h
  repeat' split at h
  all_goals first | contradiction | exact (Except.ok.inj h).symm

end Policy
end TwinWall
