/-! Whole numbers in decimal digits. Reading takes any run of ASCII digits, leading zeros included;
writing gives the shortest run. -/
namespace TwinWall
namespace Decimal

def digit? (c : Char) : Option Nat := if c.isDigit then some (c.toNat - 48) else none

def valueFrom (n : Nat) : List Nat → Nat
  | [] => n
  | d :: ds => valueFrom (10 * n + d) ds

theorem valueFrom_append (n : Nat) (ds es : List Nat) :
    valueFrom n (ds ++ es) = valueFrom (valueFrom n ds) es := by
  induction ds generalizing n with
  | nil => rfl
  | cons d ds ih => simp [valueFrom, ih]

/-- The value of a text that is one or more digits. -/
def digits? (s : List Char) : Option Nat :=
  if s.isEmpty then none else (s.mapM digit?).map (valueFrom 0)

/-- Digits, after at most one plus sign. -/
def unsigned? : List Char → Option Nat
  | '+' :: r => digits? r
  | s => digits? s

/-- Digits, after at most one sign. -/
def signed? : List Char → Option Int
  | '-' :: r => (digits? r).map fun n => -(n : Int)
  | s => (unsigned? s).map fun n => (n : Int)

theorem digit?_digitChar {d : Nat} (h : d < 10) : digit? d.digitChar = some d := by
  have : d = 0 ∨ d = 1 ∨ d = 2 ∨ d = 3 ∨ d = 4 ∨ d = 5 ∨ d = 6 ∨ d = 7 ∨ d = 8 ∨ d = 9 := by omega
  rcases this with rfl | rfl | rfl | rfl | rfl | rfl | rfl | rfl | rfl | rfl <;> decide

theorem mapM_digit?_toDigits (n : Nat) :
    ∃ ds, (Nat.toDigits 10 n).mapM digit? = some ds ∧ valueFrom 0 ds = n := by
  induction n using Nat.strongRecOn with
  | _ n ih =>
    by_cases h : n < 10
    · refine ⟨[n], ?_, by simp [valueFrom]⟩
      simp [Nat.toDigits_of_lt_base h, digit?_digitChar h]
    · obtain ⟨ds, hds, hv⟩ := ih (n / 10) (by omega)
      refine ⟨ds ++ [n % 10], ?_, ?_⟩
      · rw [Nat.toDigits_of_base_le (by omega) (by omega)]
        simp [List.mapM_append, hds, digit?_digitChar (Nat.mod_lt n (by omega : 0 < 10))]
      · rw [valueFrom_append, hv]
        simp [valueFrom]
        omega

/-- What is written is read back. -/
theorem digits?_repr (n : Nat) : digits? n.repr.toList = some n := by
  obtain ⟨ds, hds, hv⟩ := mapM_digit?_toDigits n
  have hne : Nat.toDigits 10 n ≠ [] := by
    by_cases h : n < 10
    · simp [Nat.toDigits_of_lt_base h]
    · simp [Nat.toDigits_of_base_le (b := 10) (by omega) (by omega : 10 ≤ n)]
  simp [digits?, hds, hv, hne]

/-- A minus sign stands before a negative number and no sign before any other. -/
def ofInt : Int → String
  | .ofNat n => n.repr
  | .negSucc n => "-" ++ (n + 1).repr

end Decimal
end TwinWall
