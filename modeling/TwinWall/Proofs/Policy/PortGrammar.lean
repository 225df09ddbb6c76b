import TwinWall.Proofs.Decimal.Numeral
import TwinWall.Proofs.Policy.Kept
import TwinWall.Proofs.Policy.PortText

/-! The texts of port entries, told without the reader: one port, or two in order around the only hyphen. A
number stands for the same entry as its digits do. -/
namespace TwinWall

open Text

/-- The whole number that a number is, however large. -/
def Json.Number.integer? : Json.Number → Option Int
  | .whole n => some n
  | .binary x => x.toInt?

namespace Policy

open Json Decimal

/-- A port with blanks around it: digits behind at most one plus sign. -/
def PortText (s : List Char) (p : Nat) : Prop :=
  ∃ front t back, s = front ++ (t ++ back) ∧ (∀ c ∈ front, isBlank c = true) ∧
    (∀ c ∈ back, isBlank c = true) ∧ Unsigned t p ∧ 1 ≤ p ∧ p ≤ 65535

def PortEntry.Spelled (s : List Char) : PortEntry → Prop
  | single p => '-' ∉ s ∧ PortText s p
  | range a b => s.count '-' = 1 ∧ ∃ front back, s = front ++ '-' :: back ∧ PortText front a ∧
      PortText back b ∧ a ≤ b

theorem isBlank_of_unsigned {s : List Char} {n : Nat} (h : Unsigned s n) :
    ∀ c ∈ s, isBlank c = false := by
  intro c hc
  rcases h.letters c hc with rfl | hdigit
  · decide
  · exact isBlank_of_isPlain (Net.isPlain_of_isDigit hdigit)

theorem portNumber_eq_ok_iff {s : List Char} {p : Nat} : portNumber s = .ok p ↔ PortText s p := by
  rw [portNumber_eq_ok, unsigned?_eq_some_iff]
  constructor
  · rintro ⟨hread, hbounds⟩
    obtain ⟨front, back, hs, hfront, hback⟩ := exists_trimmed s
    exact ⟨front, trimmed s, back, hs, hfront, hback, hread, hbounds⟩
  · rintro ⟨front, t, back, rfl, hfront, hback, hread, hbounds⟩
    rw [trimmed_between hfront (isBlank_of_unsigned hread) hback]
    exact ⟨hread, hbounds⟩

namespace PortEntry

theorem parse_eq_ok_iff {raw : String} {e : PortEntry} : parse raw = .ok e ↔ e.Spelled raw.toList := by
  cases e with
  | single p => rw [parse_eq_single, portNumber_eq_ok_iff, Spelled]
  | range a b =>
    simp only [parse_eq_range, portNumber_eq_ok_iff, Spelled]
    constructor
    · rintro ⟨s, t, hraw, hs, ht, hports⟩
      refine ⟨?_, s, t, hraw, hports⟩
      rw [hraw, List.count_append, List.count_cons_self, List.count_eq_zero.2 hs,
        List.count_eq_zero.2 ht]
    · rintro ⟨hone, s, t, hraw, hports⟩
      rw [hraw, List.count_append, List.count_cons_self] at hone
      have hs : s.count '-' = 0 := by omega
      have ht : t.count '-' = 0 := by omega
      exact ⟨s, t, hraw, List.count_eq_zero.1 hs, List.count_eq_zero.1 ht, hports⟩

theorem parse_repr {n : Nat} {e : PortEntry} :
    parse n.repr = .ok e ↔ 0 < n ∧ n ≤ maxPort ∧ e = single n := by
  have hdash : '-' ∉ n.repr.toList := Net.Address.notMem_repr (by decide)
  cases e with
  | single p =>
    rw [parse_eq_single, portNumber_eq_ok, (Net.isPlain_repr n).trimmed_toList, Net.unsigned?_repr]
    constructor
    · rintro ⟨-, heq, hpos, hle⟩
      cases heq
      exact ⟨hpos, hle, rfl⟩
    · rintro ⟨hpos, hle, heq⟩
      cases heq
      exact ⟨hdash, rfl, hpos, hle⟩
  | range a b =>
    rw [parse_eq_range]
    constructor
    · rintro ⟨s, t, hraw, -⟩
      exact absurd (by simp [hraw]) hdash
    · rintro ⟨-, -, heq⟩
      cases heq

/-- A minus sign is a hyphen with no port in front. -/
theorem parse_negative (n : Nat) (e : PortEntry) : parse (ofInt (.negSucc n)) ≠ .ok e := by
  have htext : (ofInt (.negSucc n)).toList = '-' :: (n + 1).repr.toList := by simp [ofInt]
  intro h
  cases e with
  | single p => exact (parse_eq_single.1 h).1 (by simp [htext])
  | range a b =>
    obtain ⟨s, t, hraw, hs, -, ha, -⟩ := parse_eq_range.1 h
    rw [htext] at hraw
    cases s with
    | nil => cases ha
    | cons c s =>
      obtain ⟨rfl, -⟩ := List.cons.inj hraw
      exact hs (by simp)

end PortEntry

theorem portOf_string {s : String} {e : PortEntry} :
    portOf (.string s) = .ok e ↔ PortEntry.parse s = .ok e :=
  mapError_eq_ok

/-- In the bounds of a port it makes no difference which numbers count as whole. -/
theorem toInt?_eq_port {n : Number} {p : Nat} (h : p ≤ maxPort) :
    n.toInt? = some (p : Int) ↔ n.integer? = some (p : Int) := by
  have hport : p ≤ 65535 := h
  cases n with
  | whole k =>
    by_cases hk : k ≤ Number.greatestSigned
    · rw [Number.toInt?_whole hk, Number.integer?]
    · simp only [Number.toInt?, Number.integer?, if_neg hk, Option.some.injEq]
      constructor
      · intro h
        cases h
      · rintro rfl
        rw [Number.greatestSigned] at hk
        omega
  | binary x =>
    rw [Number.toInt?, Number.integer?, Option.filter_eq_some_iff]
    refine and_iff_left (decide_eq_true ?_)
    rw [Int.natAbs_natCast, Number.wholeBound]
    omega

theorem portOf_number {n : Number} {e : PortEntry} :
    portOf (.number n) = .ok e ↔
      ∃ p : Nat, n.integer? = some (p : Int) ∧ 0 < p ∧ p ≤ maxPort ∧ e = .single p := by
  constructor
  · intro h
    cases portFrom_of_portOf h with
    | number hread hsound =>
      exact ⟨_, (toInt?_eq_port hsound.2).1 hread, hsound.1, hsound.2, rfl⟩
  · rintro ⟨p, hread, hpos, hle, rfl⟩
    have hint := (toInt?_eq_port hle).2 hread
    have hcheck : (checkPort p).map PortEntry.single = .ok (.single p) :=
      map_eq_ok.2 ⟨p, checkPort_eq_ok.2 ⟨rfl, hpos⟩, rfl⟩
    rw [portOf, hint]
    simp only [if_pos hle, hcheck]
    rfl

/-- A whole number is accepted just if its digits are, and for the same entry. -/
theorem portOf_digits {n : Number} {i : Int} (h : n.integer? = some i) :
    (portOf (.number n)).toOption = (portOf (.string (ofInt i))).toOption := by
  refine Option.ext fun e => ?_
  rw [toOption_eq_some, toOption_eq_some, portOf_string, portOf_number, h]
  cases i with
  | ofNat p =>
    rw [ofInt, PortEntry.parse_repr]
    constructor
    · rintro ⟨q, hq, hport⟩
      cases hq
      exact hport
    · exact fun hport => ⟨p, rfl, hport⟩
  | negSucc n =>
    constructor
    · rintro ⟨q, hq, -⟩
      cases hq
    · exact fun hparse => absurd hparse (PortEntry.parse_negative n e)

/-- What is accepted as a port entry: just the texts that spell one, the text of the entry itself among them,
and a number just if its digits are. -/
theorem ports_settled :
    (∀ raw e, PortEntry.parse raw = .ok e ↔ e.Spelled raw.toList) ∧
    (∀ raw, (∃ err, PortEntry.parse raw = .error err) ↔ ∀ e : PortEntry, ¬ e.Spelled raw.toList) ∧
    (∀ e : PortEntry, e.Sound → PortEntry.parse e.text = .ok e) ∧
    ∀ n i, n.integer? = some i →
      (portOf (.number n)).toOption = (portOf (.string (ofInt i))).toOption := by
  refine ⟨fun raw e => PortEntry.parse_eq_ok_iff, fun raw => ?_, fun e => PortEntry.parse_text,
    fun n i => portOf_digits⟩
  simp only [← PortEntry.parse_eq_ok_iff]
  cases PortEntry.parse raw with
  | error err => simp
  | ok e => simp

/-- The number 80 with a fraction of zero. -/
def eighty : Number := .binary ⟨false, 80 * 2 ^ 46, -46⟩

theorem ports_settled_padded :
    (PortEntry.range 80 443).Spelled " +0080 -\u2003443".toList ∧
    PortEntry.parse (PortEntry.range 80 443).text = .ok (.range 80 443) ∧
    eighty.text = "80.0" ∧ (portOf (.number eighty)).toOption = (portOf (.string "80")).toOption := by
  obtain ⟨hspelled, -, htext, hnumber⟩ := ports_settled
  have hread : PortEntry.parse " +0080 -\u2003443" = .ok (.range 80 443) := by rfl
  have hsound : (PortEntry.range 80 443).Sound := ⟨by decide, by decide, by decide⟩
  exact ⟨(hspelled _ _).1 hread, htext _ hsound, by decide +kernel, hnumber eighty 80 (by decide)⟩

end Policy
end TwinWall
