import TwinWall.Json.Value

/-! Writing of JSON texts, either without any blank or with one member or item a line. -/
namespace TwinWall
namespace Json

def hexDigit (n : Nat) : Char := Nat.digitChar n

/-- A quote, a backslash and the characters below the blank are escaped, and no other. -/
def escape (c : Char) : List Char :=
  if c = '"' then ['\\', '"']
  else if c = '\\' then ['\\', '\\']
  else if 0x20 ≤ c.toNat then [c]
  else if c = '\x08' then ['\\', 'b']
  else if c = '\x0c' then ['\\', 'f']
  else if c = '\n' then ['\\', 'n']
  else if c = '\r' then ['\\', 'r']
  else if c = '\t' then ['\\', 't']
  else ['\\', 'u', '0', '0', hexDigit (c.toNat / 16), hexDigit (c.toNat % 16)]

def quoted (s : String) : String := "\"" ++ String.ofList (s.toList.flatMap escape) ++ "\""

@[simp] theorem toList_quoted (s : String) :
    (quoted s).toList = '"' :: (s.toList.flatMap escape ++ ['"']) := by
  simp [quoted]

/-- No character below the blank is written inside a string. -/
theorem blank_le_of_mem_escape {c d : Char} (h : d ∈ escape c) : 0x20 ≤ d.toNat := by
  have hhex : ∀ n, n < 32 →
      0x20 ≤ (hexDigit (n / 16)).toNat ∧ 0x20 ≤ (hexDigit (n % 16)).toNat := by decide
  unfold escape at h
  repeat' split at h
  all_goals simp only [List.mem_cons, List.not_mem_nil, or_false] at h
  all_goals try (rcases h with rfl | rfl <;> decide)
  · subst h; assumption
  · have := hhex c.toNat (by omega)
    rcases h with rfl | rfl | rfl | rfl | rfl | rfl <;> first | decide | omega

namespace Value

mutual

def compact : Value → String
  | .null => "null"
  | .bool b => if b then "true" else "false"
  | .number n => n.text
  | .string s => quoted s
  | .array l => "[" ++ ",".intercalate (compactItems l) ++ "]"
  | .object m => "\x7b" ++ ",".intercalate (compactMembers m) ++ "\x7d"

def compactItems : List Value → List String
  | [] => []
  | v :: r => compact v :: compactItems r

def compactMembers : List (String × Value) → List String
  | [] => []
  | (k, v) :: r => (quoted k ++ ":" ++ compact v) :: compactMembers r

end

@[simp] theorem compactItems_eq_map (l : List Value) : compactItems l = l.map compact := by
  induction l with
  | nil => rfl
  | cons v r ih => simp [compactItems, ih]

@[simp] theorem compactMembers_eq_map (m : List (String × Value)) :
    compactMembers m = m.map fun p => quoted p.1 ++ ":" ++ compact p.2 := by
  induction m with
  | nil => rfl
  | cons p r ih => simp [compactMembers, ih]

end Value

def indent (n : Nat) : String := String.ofList (List.replicate (2 * n) ' ')

/-- Items on lines of their own between two marks; no items leave the marks together. -/
def block (n : Nat) (left right : String) (items : List String) : String :=
  if items.isEmpty then left ++ right
  else
    left ++ "\n" ++ ",\n".intercalate (items.map (indent (n + 1) ++ ·)) ++ "\n" ++ indent n ++ right

namespace Value

mutual

/-- The value as written at a given depth. -/
def prettyAt (n : Nat) : Value → String
  | .null => "null"
  | .bool b => if b then "true" else "false"
  | .number x => x.text
  | .string s => quoted s
  | .array l => block n "[" "]" (prettyItems (n + 1) l)
  | .object m => block n "\x7b" "\x7d" (prettyMembers (n + 1) m)

def prettyItems (n : Nat) : List Value → List String
  | [] => []
  | v :: r => prettyAt n v :: prettyItems n r

def prettyMembers (n : Nat) : List (String × Value) → List String
  | [] => []
  | (k, v) :: r => (quoted k ++ ": " ++ prettyAt n v) :: prettyMembers n r

end

def pretty (v : Value) : String := prettyAt 0 v

end Value
end Json
end TwinWall
