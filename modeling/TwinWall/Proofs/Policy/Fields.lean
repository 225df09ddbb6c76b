import TwinWall.Policy.Field
import TwinWall.Proofs.Text.Words

/-! What the checks of single fields make sure of: names that are plain words and not too long, ports in
their bounds, and fields that are there. -/
namespace TwinWall
namespace Policy

open Json Text

theorem map_eq_ok {ε α β : Type} {x : Except ε α} {f : α → β} {y : β} :
    x.map f = .ok y ↔ ∃ a, x = .ok a ∧ f a = y := by
  cases x <;> simp [Except.map]

theorem mapError_eq_ok {ε δ α : Type} {x : Except ε α} {f : ε → δ} {y : α} :
    x.mapError f = .ok y ↔ x = .ok y := by
  cases x with
  | error e => exact ⟨nofun, nofun⟩
  | ok z =>
    have hmap : (Except.ok z).mapError f = .ok z := rfl
    rw [hmap, Except.ok.injEq, Except.ok.injEq]

theorem mapError_eq_error {ε δ α : Type} {x : Except ε α} {f : ε → δ} {e : δ} :
    x.mapError f = .error e ↔ ∃ d, x = .error d ∧ f d = e := by
  cases x with
  | error d =>
    have hmap : (Except.error d : Except ε α).mapError f = .error (f d) := rfl
    simp [hmap]
  | ok y => exact ⟨nofun, nofun⟩

theorem toOption_eq_some {ε α : Type} {x : Except ε α} {y : α} : x.toOption = some y ↔ x = .ok y := by
  cases x <;> simp [Except.toOption]

theorem bind_eq_ok {ε α β : Type} {x : Except ε α} {f : α → Except ε β} {y : β} :
    x >>= f = .ok y ↔ ∃ a, x = .ok a ∧ f a = .ok y := by
  cases x <;> simp [bind, Except.bind]

theorem bind_eq_error {ε α β : Type} {x : Except ε α} {f : α → Except ε β} {e : ε} :
    x >>= f = .error e ↔ x = .error e ∨ ∃ a, x = .ok a ∧ f a = .error e := by
  cases x <;> simp [bind, Except.bind]

/-- A name that passed a check. -/
structure IsName (s : String) : Prop where
  ne_nil : s.toList ≠ []
  letters : ∀ c ∈ s.toList, isNameChar c = true

theorem isPlain_of_isNameChar {c : Char} (h : isNameChar c = true) : isPlain c = true := by
  simp only [isNameChar, Bool.or_eq_true, decide_eq_true_eq] at h
  rcases h with ((h | h) | h) | h <;> simp [isPlain, h]

theorem IsName.isPlain {s : String} (h : IsName s) : IsPlain s :=
  ⟨h.ne_nil, fun c hc => isPlain_of_isNameChar (h.letters c hc)⟩

/-- A checked name with the greatest length of its kind. -/
structure IsNameWithin (limit : Nat) (s : String) : Prop extends IsName s where
  length_le : s.length ≤ limit

theorem length_le_octets (s : List Char) : s.length ≤ octets s := by
  induction s with
  | nil => exact Nat.le_refl 0
  | cons c s ih =>
    have hc := c.utf8Size_pos
    rw [List.length_cons, octets_cons]
    omega

/-- A limit of octets is one of characters. -/
theorem length_le_of_octets {limit : Nat} {s : String} (h : ¬ limit < octets s.toList) :
    s.length ≤ limit := by
  rw [← String.length_toList]
  exact Nat.le_trans (length_le_octets s.toList) (Nat.le_of_not_lt h)

/-- The names of the directories that are everywhere are no names of interfaces. -/
theorem isNameWithin_of_checkInterface {s t : String} (h : checkInterface s = .ok t) :
    IsNameWithin interfaceLimit t ∧ t ≠ "." ∧ t ≠ ".." := by
  obtain rfl := eq_of_checkInterface h
  simp only [checkInterface] at h
  split at h
  · cases h
  · split at h
    · cases h
    · rename_i hlen
      split at h
      · cases h
      · rename_i hreserved
        split at h
        · rename_i hall
          refine ⟨⟨⟨fun hnil => hreserved (Or.inl hnil), List.all_eq_true.1 hall⟩,
            length_le_of_octets hlen⟩, ?_, ?_⟩
          · rintro rfl
            exact hreserved (Or.inr (Or.inl rfl))
          · rintro rfl
            exact hreserved (Or.inr (Or.inr rfl))
        · cases h

theorem isNameWithin_of_checkIdentifier {kind s t : String} (h : checkIdentifier kind s = .ok t) :
    IsNameWithin identifierLimit t := by
  obtain rfl := eq_of_checkIdentifier h
  simp only [checkIdentifier] at h
  split at h
  · cases h
  · rename_i hne
    split at h
    · cases h
    · split at h
      · cases h
      · rename_i hlen
        split at h
        · rename_i hall
          exact ⟨⟨hne, List.all_eq_true.1 hall⟩, length_le_of_octets hlen⟩
        · cases h

namespace PortEntry

/-- Ports in their bounds and in order. -/
def Sound : PortEntry → Prop
  | single p => 0 < p ∧ p ≤ maxPort
  | range a b => 0 < a ∧ a ≤ b ∧ b ≤ maxPort

end PortEntry

theorem checkPort_eq_ok {n m : Nat} : checkPort n = .ok m ↔ n = m ∧ 0 < n := by
  by_cases h : n = 0 <;> simp [checkPort, h]
  omega

theorem portNumber_eq_ok {s : List Char} {n : Nat} :
    portNumber s = .ok n ↔ Decimal.unsigned? (trimmed s) = some n ∧ 0 < n ∧ n ≤ maxPort := by
  rw [portNumber]
  cases hread : Decimal.unsigned? (trimmed s) with
  | none => simp
  | some m =>
    by_cases hle : m ≤ maxPort
    · simp only [Option.filter_some, hle, decide_true, if_true, checkPort_eq_ok, Option.some.injEq]
      constructor
      · rintro ⟨rfl, hpos⟩
        exact ⟨rfl, hpos, hle⟩
      · rintro ⟨rfl, hpos, -⟩
        exact ⟨rfl, hpos⟩
    · simp only [Option.filter_some, hle, decide_false, Bool.false_eq_true, if_false, Option.some.injEq]
      refine ⟨nofun, ?_⟩
      rintro ⟨rfl, -, hn⟩
      exact absurd hn hle

theorem checkRange_eq_ok {a b : Nat} {r : Nat × Nat} :
    checkRange a b = .ok r ↔ 0 < a ∧ 0 < b ∧ a ≤ b ∧ r = (a, b) := by
  simp only [checkRange, bind_eq_ok, checkPort_eq_ok]
  constructor
  · rintro ⟨_, ⟨rfl, ha⟩, _, ⟨rfl, hb⟩, h⟩
    split at h
    · cases h
    · rename_i hlt
      cases h
      exact ⟨ha, hb, Nat.le_of_not_lt hlt, rfl⟩
  · rintro ⟨ha, hb, hle, rfl⟩
    exact ⟨a, ⟨rfl, ha⟩, b, ⟨rfl, hb⟩, if_neg (Nat.not_lt.2 hle)⟩

namespace PortEntry

variable {raw : String} {p a b : Nat}

theorem parse_eq_single :
    parse raw = .ok (single p) ↔ '-' ∉ raw.toList ∧ portNumber raw.toList = .ok p := by
  constructor
  · intro h
    rw [parse] at h
    split at h
    · rename_i s hsplit
      obtain ⟨hraw, hnone⟩ := (splitOn_eq_iff (by simp)).1 hsplit
      rw [List.intercalate_singleton] at hraw
      obtain ⟨q, hq, heq⟩ := map_eq_ok.1 h
      cases heq
      rw [hraw]
      exact ⟨hnone s (by simp), hq⟩
    · simp [bind_eq_ok] at h
    · cases h
  · rintro ⟨hnone, hport⟩
    rw [parse, List.splitOn_eq_singleton hnone]
    exact map_eq_ok.2 ⟨p, hport, rfl⟩

theorem parse_eq_range : parse raw = .ok (range a b) ↔
    ∃ s t, raw.toList = s ++ '-' :: t ∧ '-' ∉ s ∧ '-' ∉ t ∧
      portNumber s = .ok a ∧ portNumber t = .ok b ∧ a ≤ b := by
  constructor
  · intro h
    rw [parse] at h
    split at h
    · obtain ⟨q, -, heq⟩ := map_eq_ok.1 h
      cases heq
    · rename_i s t hsplit
      obtain ⟨hraw, hnone⟩ := (splitOn_eq_iff (by simp)).1 hsplit
      obtain ⟨x, hx, h⟩ := bind_eq_ok.1 h
      obtain ⟨y, hy, h⟩ := bind_eq_ok.1 h
      obtain ⟨r, hr, h⟩ := bind_eq_ok.1 h
      obtain ⟨-, -, hle, rfl⟩ := checkRange_eq_ok.1 hr
      cases h
      exact ⟨s, t, by simpa using hraw, hnone s (by simp), hnone t (by simp), hx, hy, hle⟩
    · cases h
  · rintro ⟨s, t, hraw, hs, ht, ha, hb, hab⟩
    have hsplit : raw.toList.splitOn '-' = [s, t] := by
      rw [splitOn_eq_iff (by simp), hraw]
      simp [hs, ht]
    have hrange := checkRange_eq_ok.2 ⟨(portNumber_eq_ok.1 ha).2.1, (portNumber_eq_ok.1 hb).2.1, hab, rfl⟩
    rw [parse, hsplit]
    exact bind_eq_ok.2 ⟨a, ha, bind_eq_ok.2 ⟨b, hb, bind_eq_ok.2 ⟨(a, b), hrange, rfl⟩⟩⟩

theorem sound_of_parse {e : PortEntry} (h : parse raw = .ok e) : e.Sound := by
  cases e with
  | single p => exact (portNumber_eq_ok.1 (parse_eq_single.1 h).2).2
  | range a b =>
    obtain ⟨s, t, -, -, -, ha, hb, hab⟩ := parse_eq_range.1 h
    exact ⟨(portNumber_eq_ok.1 ha).2.1, hab, (portNumber_eq_ok.1 hb).2.2⟩

end PortEntry

/-- A field counts as missing if it is null. -/
def Missing (given : Option Value) : Prop := given = none ∨ given = some .null

section Fields

variable {m : Members} {field : String}

theorem get?_of_given? {v : Value} (h : given? m field = some v) : m.get? field = some v := by
  rw [given?] at h
  split at h
  · cases h
  · exact h

theorem missing_of_given? (h : given? m field = none) : Missing (m.get? field) := by
  rw [given?] at h
  split at h
  · rename_i hnull
    exact Or.inr hnull
  · exact Or.inl h

theorem requiredString_eq_ok {s : String} (h : requiredString m field = .ok s) :
    m.get? field = some (.string s) := by
  rw [requiredString] at h
  split at h
  · cases h
  · rename_i hs
    cases h
    exact get?_of_given? hs
  · cases h

theorem requiredList_eq_ok {l : List Value} (h : requiredList m field = .ok l) :
    m.get? field = some (.array l) := by
  rw [requiredList] at h
  split at h
  · cases h
  · rename_i hl
    cases h
    exact get?_of_given? hl
  · cases h

theorem requiredWord_eq_ok {α : Type} {ofText? : String → Option α} {allowed : String} {x : α}
    (h : requiredWord ofText? allowed m field = .ok x) :
    ∃ s, m.get? field = some (.string s) ∧ ofText? s = some x := by
  obtain ⟨s, hs, h⟩ := bind_eq_ok.1 h
  refine ⟨s, requiredString_eq_ok hs, ?_⟩
  split at h
  · rename_i y hy
    cases h
    exact hy
  · cases h

end Fields

theorem eq_object_of_membersOf {kind : String} {v : Value} {m : Members}
    (h : membersOf kind v = .ok m) : v = .object m := by
  cases v <;> cases h
  rfl

end Policy
end TwinWall
