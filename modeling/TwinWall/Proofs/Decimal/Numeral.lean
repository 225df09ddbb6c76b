import Mathlib.Data.Nat.Digits.Defs
import TwinWall.Decimal.Natural
import TwinWall.Proofs.Text.Words

/-! The texts that are read as whole numbers. These are the runs of digits of any length, with zeros in front
or not, and for a number without sign the same behind one plus sign. -/
namespace TwinWall
namespace Decimal

open Text

/-- One or more ASCII digits that write a number, the most significant in front. -/
def Numeral (s : List Char) (n : Nat) : Prop :=
  ∃ ds : List Nat, ds ≠ [] ∧ (∀ d ∈ ds, d < 10) ∧ s = ds.map Nat.digitChar ∧
    Nat.ofDigits 10 ds.reverse = n

/-- A numeral behind at most one plus sign. -/
def Unsigned (s : List Char) (n : Nat) : Prop := Numeral s n ∨ ∃ r, s = '+' :: r ∧ Numeral r n

theorem valueFrom_eq_foldl (n : Nat) (ds : List Nat) :
    valueFrom n ds = ds.foldl (fun n d => 10 * n + d) n := by
  induction ds generalizing n with
  | nil => rfl
  | cons d ds ih => rw [valueFrom, ih, List.foldl_cons]

theorem valueFrom_eq_ofDigits (ds : List Nat) : valueFrom 0 ds = Nat.ofDigits 10 ds.reverse := by
  rw [valueFrom_eq_foldl, Nat.ofDigits_eq_foldr, List.foldr_reverse]
  simp [Nat.add_comm]

theorem digit?_eq_some_iff {c : Char} {d : Nat} : digit? c = some d ↔ d < 10 ∧ c = d.digitChar := by
  constructor
  · intro h
    have hdigit : c.isDigit = true := by
      rw [digit?] at h
      split at h
      · assumption
      · cases h
    exact of_forall_ascii (P := fun c => ∀ d ∈ digit? c, d < 10 ∧ c = d.digitChar) (by decide)
      (toNat_lt_of_isDigit hdigit) d h
  · rintro ⟨hd, rfl⟩
    exact digit?_digitChar hd

theorem mapM_digit?_eq_some_iff {s : List Char} {ds : List Nat} :
    s.mapM digit? = some ds ↔ s = ds.map Nat.digitChar ∧ ∀ d ∈ ds, d < 10 := by
  constructor
  · intro h
    induction s generalizing ds with
    | nil =>
      cases h
      exact ⟨rfl, List.forall_mem_nil _⟩
    | cons c s ih =>
      rw [List.mapM_cons] at h
      obtain ⟨d, hd, h⟩ := Option.bind_eq_some_iff.1 h
      obtain ⟨es, hes, h⟩ := Option.bind_eq_some_iff.1 h
      cases h
      obtain ⟨hlt, rfl⟩ := digit?_eq_some_iff.1 hd
      obtain ⟨rfl, hall⟩ := ih hes
      exact ⟨rfl, List.forall_mem_cons.2 ⟨hlt, hall⟩⟩
  · rintro ⟨rfl, hall⟩
    exact mapM_map_eq_some fun d hd => digit?_digitChar (hall d hd)

theorem digits?_eq_some_iff {s : List Char} {n : Nat} : digits? s = some n ↔ Numeral s n := by
  constructor
  · intro h
    rw [digits?] at h
    split at h
    · cases h
    · rename_i hne
      obtain ⟨ds, hds, rfl⟩ := Option.map_eq_some_iff.1 h
      obtain ⟨rfl, hall⟩ := mapM_digit?_eq_some_iff.1 hds
      exact ⟨ds, by simpa using hne, hall, rfl, (valueFrom_eq_ofDigits ds).symm⟩
  · rintro ⟨ds, hne, hall, rfl, rfl⟩
    have hread := mapM_digit?_eq_some_iff.2 ⟨rfl, hall⟩
    rw [digits?, if_neg (by simpa using hne), hread, Option.map_some, valueFrom_eq_ofDigits]

theorem Numeral.isDigit {s : List Char} {n : Nat} (h : Numeral s n) : ∀ c ∈ s, c.isDigit = true := by
  obtain ⟨ds, -, hall, rfl, -⟩ := h
  intro c hc
  obtain ⟨d, hd, rfl⟩ := List.mem_map.1 hc
  rw [Nat.isDigit_digitChar]
  exact decide_eq_true (hall d hd)

theorem unsigned?_eq_some_iff {s : List Char} {n : Nat} : unsigned? s = some n ↔ Unsigned s n := by
  rw [unsigned?.eq_def, Unsigned]
  split
  · rename_i r
    rw [digits?_eq_some_iff]
    constructor
    · intro h
      exact Or.inr ⟨r, rfl, h⟩
    · rintro (h | ⟨t, ht, h⟩)
      · exact absurd (h.isDigit '+' (by simp)) (by decide)
      · rwa [(List.cons.inj ht).2]
  · rename_i hplus
    rw [digits?_eq_some_iff]
    constructor
    · exact Or.inl
    · rintro (h | ⟨r, rfl, -⟩)
      · exact h
      · exact absurd rfl (hplus r)

theorem Unsigned.letters {s : List Char} {n : Nat} (h : Unsigned s n) :
    ∀ c ∈ s, c = '+' ∨ c.isDigit = true := by
  rcases h with h | ⟨r, rfl, h⟩
  · exact fun c hc => Or.inr (h.isDigit c hc)
  · intro c hc
    exact (List.mem_cons.1 hc).imp_right (h.isDigit c)

end Decimal
end TwinWall
