import TwinWall.Json.Number

/-! The values of JSON texts. An object keeps its members in the order of their keys, each key once. -/
namespace TwinWall
namespace Json

inductive Value where
  | null
  | bool (value : Bool)
  | number (value : Number)
  | string (value : String)
  | array (items : List Value)
  | object (members : List (String × Value))
deriving Inhabited

abbrev Members := List (String × Value)

namespace Members

/-- A key that is there already gets the new value. -/
def insert (k : String) (v : Value) : Members → Members
  | [] => [(k, v)]
  | (k', v') :: r =>
    if k = k' then (k, v) :: r
    else if k < k' then (k, v) :: (k', v') :: r
    else (k', v') :: insert k v r

def get? (k : String) : Members → Option Value
  | [] => none
  | (k', v) :: r => if k = k' then some v else get? k r

@[simp] theorem get?_insert_self (k : String) (v : Value) (m : Members) :
    get? k (insert k v m) = some v := by
  induction m with
  | nil => simp [insert, get?]
  | cons p r ih =>
    by_cases h : k = p.1
    · simp [insert, get?, h]
    · by_cases hlt : k < p.1 <;> simp [insert, get?, h, hlt, ih]

@[simp] theorem get?_insert_of_ne {k k' : String} (h : k ≠ k') (v : Value) (m : Members) :
    get? k (insert k' v m) = get? k m := by
  induction m with
  | nil => simp [insert, get?, h]
  | cons p r ih =>
    by_cases he : k' = p.1
    · subst he; simp [insert, get?, h]
    · by_cases hlt : k' < p.1
      · simp [insert, get?, he, hlt, h]
      · simp [insert, get?, he, hlt, ih]

def ofList (l : List (String × Value)) : Members := l.foldl (fun m p => insert p.1 p.2 m) []

end Members

namespace Value

/-- A member of an object; no other value has members. -/
def get? (k : String) : Value → Option Value
  | .object m => Members.get? k m
  | _ => none

def string? : Value → Option String
  | .string s => some s
  | _ => none

def array? : Value → Option (List Value)
  | .array l => some l
  | _ => none

def bool? : Value → Option Bool
  | .bool b => some b
  | _ => none

def ofNat (n : Nat) : Value := .number (.whole n)

def ofInt (n : Int) : Value := .number (.whole n)

def record (l : List (String × Value)) : Value := .object (Members.ofList l)

end Value
end Json
end TwinWall
