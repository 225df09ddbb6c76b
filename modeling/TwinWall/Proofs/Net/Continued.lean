import Mathlib.Data.Nat.Digits.Defs
import TwinWall.Proofs.Net.AddressText

/-! Address texts of the second family that are continued by the last groups of another. The double colon
must be in the text already, and the last group behind it takes up the first digits that follow. -/
namespace TwinWall
namespace Net

open Text

theorem joined_eq_ofDigits (b : Nat) (l : List Nat) : joined b l = Nat.ofDigits b l.reverse := by
  rw [Nat.ofDigits_eq_foldr, List.foldr_reverse]
  simp [joined, Nat.add_comm]

theorem joined_append (b : Nat) (l m : List Nat) :
    joined b (l ++ m) = joined b l * b ^ m.length + joined b m := by
  rw [joined_eq_ofDigits, List.reverse_append, Nat.ofDigits_append, List.length_reverse,
    ← joined_eq_ofDigits, ← joined_eq_ofDigits, Nat.add_comm, Nat.mul_comm]

theorem joined_replicate_zero (b n : Nat) : joined b (List.replicate n 0) = 0 := by
  rw [joined_eq_ofDigits, List.reverse_replicate, Nat.ofDigits_replicate_zero]

theorem joined_lt {b : Nat} (hb : 1 < b) {l : List Nat} (h : ∀ d ∈ l, d < b) :
    joined b l < b ^ l.length := by
  rw [joined_eq_ofDigits, ← List.length_reverse]
  exact Nat.ofDigits_lt_base_pow_length hb fun d hd => h d (List.mem_reverse.1 hd)

theorem joined_eq_zero_iff {b : Nat} (hb : b ≠ 0) {l : List Nat} :
    joined b l = 0 ↔ ∀ d ∈ l, d = 0 := by
  constructor
  · intro h d hd
    rw [joined_eq_ofDigits] at h
    exact Nat.digits_zero_of_eq_zero hb h d (List.mem_reverse.2 hd)
  · intro h
    rw [List.eq_replicate_of_mem h, joined_replicate_zero]

theorem hexFrom_eq (n : Nat) (ds : List Nat) : hexFrom n ds = ds.foldl (fun n d => 16 * n + d) n := by
  induction ds generalizing n with
  | nil => rfl
  | cons d ds ih => rw [hexFrom, ih, List.foldl_cons]

theorem hexValue?_lt {c : Char} {d : Nat} (h : hexValue? c = some d) : d < 16 :=
  of_forall_ascii (P := fun c => ∀ d ∈ hexValue? c, d < 16) (by decide)
    (toNat_lt_of_isHex (by simp [isHex, h])) d h

theorem mapM_hexValue?_bounds {s : List Char} {ds : List Nat} (h : s.mapM hexValue? = some ds) :
    ds.length = s.length ∧ ∀ d ∈ ds, d < 16 := by
  induction s generalizing ds with
  | nil => simp_all
  | cons c s ih =>
    rw [List.mapM_cons] at h
    obtain ⟨d, hd, h⟩ := Option.bind_eq_some_iff.1 h
    obtain ⟨es, hes, h⟩ := Option.bind_eq_some_iff.1 h
    cases h
    obtain ⟨hlen, hlt⟩ := ih hes
    refine ⟨by rw [List.length_cons, List.length_cons, hlen], ?_⟩
    simp only [List.forall_mem_cons]
    exact ⟨hexValue?_lt hd, hlt⟩

theorem hex?_lt {s : List Char} {g : Nat} (h : hex? s = some g) : g < 16 ^ s.length := by
  rw [hex?] at h
  split at h
  · cases h
  · obtain ⟨ds, hds, rfl⟩ := Option.map_eq_some_iff.1 h
    obtain ⟨hlen, hlt⟩ := mapM_hexValue?_bounds hds
    rw [hexFrom_eq, ← hlen]
    exact joined_lt (by decide) hlt

/-- The part of a text behind its last colon. -/
def lastPart (s : List Char) : List Char := (s.splitOn ':').getLastD []

/-- What is written behind a text without a colon goes to its last part. -/
theorem splitOn_append_word (s : List Char) {w : List Char} (hw : ':' ∉ w) :
    ∃ front, s.splitOn ':' = front ++ [lastPart s] ∧ (s ++ w).splitOn ':' = front ++ [lastPart s ++ w] := by
  have hparts : ∃ front last, s.splitOn ':' = front ++ [last] ∧
      (s ++ w).splitOn ':' = front ++ [last ++ w] := by
    induction s with
    | nil => exact ⟨[], [], by simp, by simpa using List.splitOn_eq_singleton hw⟩
    | cons c s ih =>
      obtain ⟨front, last, hs, hsw⟩ := ih
      rw [List.cons_append, List.splitOn_cons_eq_if_modifyHead, List.splitOn_cons_eq_if_modifyHead, hs,
        hsw]
      by_cases hc : (c == ':') = true
      · exact ⟨[] :: front, last, by simp [hc], by simp [hc]⟩
      · cases front with
        | nil => exact ⟨[], c :: last, by simp [hc], by simp [hc]⟩
        | cons p front => exact ⟨(c :: p) :: front, last, by simp [hc], by simp [hc]⟩
  obtain ⟨front, last, hs, hsw⟩ := hparts
  have hlast : lastPart s = last := by simp [lastPart, hs]
  exact ⟨front, by rw [hlast, hs], by rw [hlast, hsw]⟩

namespace Address

theorem group?_lt {s : List Char} {g : Nat} (h : group? s = some g) : g < 16 ^ s.length ∧ g < 65536 := by
  rw [group?] at h
  split at h
  · rename_i hlen
    refine ⟨hex?_lt h, ?_⟩
    calc g < 16 ^ s.length := hex?_lt h
      _ ≤ 16 ^ 4 := Nat.pow_le_pow_right (by decide) hlen
  · cases h

/-- Groups in front of others, of which the last may be dotted, are read one by one. -/
theorem groupList?_append (dots : Bool) (front : List (List Char)) {r : List (List Char)} (hr : r ≠ []) :
    groupList? dots (front ++ r) =
      (front.mapM group?).bind fun gs => (groupList? dots r).map (gs ++ ·) := by
  induction front with
  | nil => simp
  | cons s front ih =>
    obtain ⟨x, xs, hx⟩ := List.exists_cons_of_ne_nil (List.append_ne_nil_of_right_ne_nil front hr)
    rw [List.cons_append, hx, groupList?, ← hx, ih, List.mapM_cons]
    · cases group? s with
      | none => rfl
      | some g => cases front.mapM group? <;> cases groupList? dots r <;> rfl
    · rintro ⟨⟩

theorem length_of_groupList? {dots : Bool} {l : List (List Char)} {gs : List Nat}
    (h : groupList? dots l = some gs) : l.length ≤ gs.length ∧ gs.length ≤ l.length + 1 := by
  induction l generalizing gs with
  | nil =>
    cases h
    simp
  | cons s l ih =>
    cases l with
    | nil =>
      rw [groupList?] at h
      split at h
      · cases h
        simp
      · split at h
        · obtain ⟨o, -, rfl⟩ := Option.map_eq_some_iff.1 h
          simp
        · cases h
    | cons t l =>
      rw [groupList?] at h
      · obtain ⟨g, -, h⟩ := Option.bind_eq_some_iff.1 h
        obtain ⟨hs, hhs, h⟩ := Option.bind_eq_some_iff.1 h
        cases h
        have ih := ih hhs
        simp only [List.length_cons] at ih ⊢
        omega
      · rintro ⟨⟩

/-- A double colon is not made by what follows a text and begins with something else. -/
theorem splitDouble_append (s : List Char) {c : Char} {r : List Char} (hc : c ≠ ':') :
    splitDouble (s ++ c :: r) = match splitDouble s with
      | some (h, t) => some (h, t ++ c :: r)
      | none => (splitDouble (c :: r)).map fun p => (s ++ p.1, p.2) := by
  fun_induction splitDouble s with
  | case1 s => simp [splitDouble]
  | case2 d s hd ih =>
    have hstep : splitDouble (d :: (s ++ c :: r)) =
        (splitDouble (s ++ c :: r)).map fun p => (d :: p.1, p.2) := by
      rw [splitDouble]
      rintro x rfl hx
      cases s with
      | nil => exact hc (List.cons.inj hx).1
      | cons e s => exact hd s rfl (by rw [(List.cons.inj hx).1])
    rw [List.cons_append, hstep, ih]
    cases splitDouble s with
    | none => cases splitDouble (c :: r) <;> rfl
    | some p => rfl
  | case3 => simp

theorem hex?_append_ten {s : List Char} (hs : s ≠ []) :
    hex? (s ++ ['1', '0']) = (hex? s).map fun g => 256 * g + 16 := by
  have hten : ['1', '0'].mapM hexValue? = some [1, 0] := by decide
  simp only [hex?, List.isEmpty_iff, hs, List.append_eq_nil_iff, false_and, if_false, List.mapM_append, hten]
  cases s.mapM hexValue? with
  | none => rfl
  | some ds =>
    simp only [Option.map_some, Option.bind_eq_bind, Option.bind_some, Option.pure_def, hexFrom_append,
      hexFrom, Option.some.injEq]
    omega

/-- A group of one or two digits may be continued by two more. -/
theorem group?_append_ten {s : List Char} (hs : s ≠ []) {v : Nat} :
    group? (s ++ ['1', '0']) = some v ↔ ∃ g, group? s = some g ∧ s.length ≤ 2 ∧ v = 256 * g + 16 := by
  rw [group?, group?, hex?_append_ten hs]
  by_cases hshort : s.length ≤ 2
  · have hfour : s.length ≤ 4 := by omega
    simp [hshort, hfour, eq_comm]
  · simp [hshort]

/-- Groups behind a double colon when the last groups of a node are put behind them. -/
def extended (ts : List Nat) (k : Nat) : List Nat := ts.dropLast ++ [256 * ts.getLastD 0 + 16, 0, k]

theorem splitOn_append_suffix (s : List Char) {e : List Char} (hcolon : ':' ∉ e) : ∃ front,
    s.splitOn ':' = front ++ [lastPart s] ∧ (s ++ '1' :: '0' :: ':' :: '0' :: ':' :: e).splitOn ':' =
      front ++ [lastPart s ++ ['1', '0'], ['0'], e] := by
  obtain ⟨front, hs, hten⟩ := splitOn_append_word s (by decide : ':' ∉ ['1', '0'])
  have htail : ('0' :: ':' :: e).splitOn ':' = [['0'], e] := by
    have hzero := List.splitOn_append_cons_of_beq ['0'] e (beq_self_eq_true ':')
    rwa [List.splitOn_eq_singleton hcolon] at hzero
  have hall := List.splitOn_append_cons_of_beq (s ++ ['1', '0']) ('0' :: ':' :: e) (beq_self_eq_true ':')
  rw [hten, htail] at hall
  exact ⟨front, hs, by simpa using hall⟩

/-- Only the last part of a text may be read in two ways. -/
theorem groups?_eq_bind {t : List Char} (ht : t ≠ []) : ∃ front, t.splitOn ':' = front ++ [lastPart t] ∧
    ∀ dots, groups? dots t =
      (front.mapM group?).bind fun gs => (groupList? dots [lastPart t]).map (gs ++ ·) := by
  obtain ⟨front, hsplit, -⟩ := splitOn_append_word t (by decide : ':' ∉ [])
  refine ⟨front, hsplit, fun dots => ?_⟩
  rw [groups?, if_neg (by simpa using ht), hsplit, groupList?_append dots front (by simp)]

theorem groupList?_singleton (s : List Char) : groupList? false [s] = (group? s).map ([·]) := by
  cases hs : group? s <;> simp [groupList?, hs]

/-- What is read without dots is read with them too. -/
theorem groups?_true_of_false {t : List Char} {ts : List Nat} (h : groups? false t = some ts) :
    groups? true t = some ts := by
  by_cases ht : t = []
  · subst ht
    exact h
  · obtain ⟨front, -, hread⟩ := groups?_eq_bind ht
    rw [hread, groupList?_singleton] at h
    rw [hread]
    cases hlast : group? (lastPart t) with
    | none => cases front.mapM group? <;> simp [hlast] at h
    | some g =>
      rw [hlast] at h
      simpa [groupList?, hlast] using h

theorem lt_of_mapM_group? {l : List (List Char)} {gs : List Nat} (h : l.mapM group? = some gs) :
    ∀ g ∈ gs, g < 65536 := by
  induction l generalizing gs with
  | nil => simp_all
  | cons s l ih =>
    rw [List.mapM_cons] at h
    obtain ⟨g, hg, h⟩ := Option.bind_eq_some_iff.1 h
    obtain ⟨gs, hgs, h⟩ := Option.bind_eq_some_iff.1 h
    cases h
    simp only [List.forall_mem_cons]
    exact ⟨(group?_lt hg).2, ih hgs⟩

theorem groups?_bounds {t : List Char} {ts : List Nat} (h : groups? false t = some ts) :
    (∀ g ∈ ts, g < 65536) ∧ ts.getLastD 0 < 16 ^ (lastPart t).length := by
  by_cases ht : t = []
  · subst ht
    cases h
    simp
  · obtain ⟨front, -, hread⟩ := groups?_eq_bind ht
    rw [hread, groupList?_singleton] at h
    obtain ⟨fs, hfs, h⟩ := Option.bind_eq_some_iff.1 h
    obtain ⟨gs, hgs, rfl⟩ := Option.map_eq_some_iff.1 h
    obtain ⟨g, hg, rfl⟩ := Option.map_eq_some_iff.1 hgs
    obtain ⟨hlen, hlt⟩ := group?_lt hg
    refine ⟨fun x hx => ?_, by simpa using hlen⟩
    rcases List.mem_append.1 hx with hx | hx
    · exact lt_of_mapM_group? hfs x hx
    · rwa [List.mem_singleton.1 hx]

/-- An address text that leaves out groups, with room for the last groups of a node behind it. -/
structure Continues (s h t : List Char) (hs ts : List Nat) : Prop where
  split : splitDouble s = some (h, t)
  front : groups? false h = some hs
  back : groups? false t = some ts
  short : (lastPart t).length ≤ 2
  room : hs.length + max 1 ts.length ≤ 5

/-- All groups of an address with some at its front and some at its end. -/
def filled (hs ts : List Nat) : List Nat :=
  hs ++ List.replicate (8 - hs.length - ts.length) 0 ++ ts

theorem length_extended (ts : List Nat) (k : Nat) : (extended ts k).length = max 1 ts.length + 2 := by
  simp only [extended, List.length_append, List.length_dropLast, List.length_cons, List.length_nil]
  omega

section Suffix

variable {e : List Char} {k : Nat} (he : group? e = some k) (hcolon : ':' ∉ e)

include he hcolon

theorem groups?_append_suffix {t : List Char} (ht : (groups? true t).isSome) {gs : List Nat} :
    groups? true (t ++ '1' :: '0' :: ':' :: '0' :: ':' :: e) = some gs ↔
      ∃ ts, groups? false t = some ts ∧ (lastPart t).length ≤ 2 ∧ gs = extended ts k := by
  obtain ⟨front, hsplit, hsuffix⟩ := splitOn_append_suffix t hcolon
  have hzero : group? ['0'] = some 0 := by decide
  have hthree : ∀ x, groupList? true [x, ['0'], e] = (group? x).map fun v => [v, 0, k] := by
    intro x
    cases hx : group? x <;> simp [groupList?, hx, hzero, he]
  have hleft : groups? true (t ++ '1' :: '0' :: ':' :: '0' :: ':' :: e) =
      (front.mapM group?).bind fun gs =>
        (group? (lastPart t ++ ['1', '0'])).map fun v => gs ++ [v, 0, k] := by
    rw [groups?, if_neg (by simp), hsuffix, groupList?_append true front (by simp), hthree]
    simp [Function.comp_def]
  rw [hleft]
  by_cases hnil : t = []
  · subst hnil
    obtain ⟨rfl, hlast⟩ : front = [] ∧ lastPart [] = [] := by
      cases front <;> simp_all [lastPart]
    have hten : group? ['1', '0'] = some 16 := by decide
    simp [hlast, hten, groups?, extended, eq_comm]
  · obtain ⟨front', hsplit', hright⟩ := groups?_eq_bind hnil
    obtain rfl : front = front' := List.append_cancel_right (hsplit.symm.trans hsplit')
    have hlast : lastPart t ≠ [] := by
      intro hempty
      have hnone : groupList? true [[]] = none := by decide
      rw [hright, hempty, hnone] at ht
      cases hm : front.mapM group? <;> simp [hm] at ht
    rw [hright, groupList?_singleton]
    simp only [Option.bind_eq_some_iff, Option.map_eq_some_iff, group?_append_ten hlast]
    constructor
    · rintro ⟨fs, hfs, v, ⟨g, hg, hshort, rfl⟩, rfl⟩
      exact ⟨fs ++ [g], ⟨fs, hfs, [g], ⟨g, hg, rfl⟩, rfl⟩, hshort, by simp [extended]⟩
    · rintro ⟨-, ⟨fs, hfs, -, ⟨g, hg, rfl⟩, rfl⟩, hshort, rfl⟩
      exact ⟨fs, hfs, _, ⟨g, hg, hshort, rfl⟩, by simp [extended]⟩

theorem splitDouble_suffix : splitDouble ('1' :: '0' :: ':' :: '0' :: ':' :: e) = none := by
  have hword : splitDouble e = none := by
    have happend := splitDouble_word (s := []) hcolon
    rwa [List.append_nil] at happend
  obtain ⟨c, r, rfl⟩ : ∃ c r, e = c :: r := by
    refine List.exists_cons_of_ne_nil ?_
    rintro rfl
    cases he
  have hc : c ≠ ':' := fun h => hcolon (by simp [h])
  have hlast : splitDouble ('0' :: ':' :: c :: r) = none := by
    have happend := splitDouble_word (w := ['0']) (s := ':' :: c :: r) (by decide)
    rwa [splitDouble_colon hc, hword] at happend
  have hten := splitDouble_word (w := ['1', '0']) (s := ':' :: '0' :: ':' :: c :: r) (by decide)
  rwa [splitDouble_colon (by decide), hlast] at hten

omit he in
/-- Two more colons are too many for a text that has groups for an address already. -/
theorem length_ne_of_append_suffix {s : List Char}
    (hs : ((groups? true s).filter (·.length = 8)).isSome) {gs : List Nat}
    (hgs : groups? true (s ++ '1' :: '0' :: ':' :: '0' :: ':' :: e) = some gs) : gs.length ≠ 8 := by
  obtain ⟨as, has⟩ := Option.isSome_iff_exists.1 hs
  obtain ⟨has, hlen⟩ := Option.filter_eq_some_iff.1 has
  have hlen : as.length = 8 := of_decide_eq_true hlen
  obtain ⟨front, hsplit, hsuffix⟩ := splitOn_append_suffix s hcolon
  rw [groups?, if_neg (by simp), hsuffix] at hgs
  have hne : ¬ s.isEmpty = true := by
    intro hempty
    rw [groups?, if_pos hempty] at has
    cases has
    cases hlen
  rw [groups?, if_neg hne, hsplit] at has
  have hfew := (length_of_groupList? has).2
  have hmany := (length_of_groupList? hgs).1
  simp only [List.length_append, List.length_cons, List.length_nil] at hfew hmany
  omega

/-- Only a text that leaves out groups can be continued, if it is an address by itself. -/
theorem allGroups?_append_suffix {s : List Char} (hs : (allGroups? s).isSome) {gs : List Nat} :
    allGroups? (s ++ '1' :: '0' :: ':' :: '0' :: ':' :: e) = some gs ↔
      ∃ h t hs ts, Continues s h t hs ts ∧ gs = filled hs (extended ts k) := by
  have hsuffix := splitDouble_append s (c := '1') (r := '0' :: ':' :: '0' :: ':' :: e) (by decide)
  cases hsplit : splitDouble s with
  | some p =>
    obtain ⟨h, t⟩ := p
    have ht : (groups? true t).isSome := by
      rw [allGroups?, hsplit] at hs
      cases hback : groups? true t with
      | some ts => rfl
      | none =>
        cases hfront : groups? false h <;> simp [hfront, hback] at hs
    rw [hsplit] at hsuffix
    rw [allGroups?, hsuffix]
    simp only [Option.bind_eq_bind, Option.bind_eq_some_iff, groups?_append_suffix he hcolon ht]
    constructor
    · rintro ⟨hs, hfront, -, ⟨ts, hback, hshort, rfl⟩, hgs⟩
      split at hgs
      · rename_i hroom
        cases hgs
        rw [length_extended] at hroom
        exact ⟨h, t, hs, ts, ⟨hsplit, hfront, hback, hshort, by omega⟩, rfl⟩
      · cases hgs
    · rintro ⟨h', t', hs, ts, hc, rfl⟩
      obtain ⟨rfl, rfl⟩ : h = h' ∧ t = t' := by simpa [hsplit] using hc.split
      refine ⟨hs, hc.front, extended ts k, ⟨ts, hc.back, hc.short, rfl⟩, ?_⟩
      have hroom := hc.room
      rw [if_pos (by rw [length_extended]; omega)]
      rfl
  | none =>
    rw [hsplit, splitDouble_suffix he hcolon] at hsuffix
    rw [allGroups?, hsplit] at hs
    rw [allGroups?, hsuffix]
    constructor
    · intro hgs
      obtain ⟨hgs, hlen⟩ := Option.filter_eq_some_iff.1 hgs
      exact absurd (of_decide_eq_true hlen) (length_ne_of_append_suffix hcolon hs hgs)
    · rintro ⟨h, t, hs, ts, hc, rfl⟩
      have hsome := hc.split
      rw [hsplit] at hsome
      cases hsome

end Suffix

theorem joined_extended (ts : List Nat) (k : Nat) : joined 65536 (extended ts k) =
    joined 65536 ts.dropLast * 2 ^ 48 + (256 * ts.getLastD 0 + 16) * 2 ^ 32 + k := by
  rw [extended, joined_append]
  simp only [List.length_cons, List.length_nil, joined, List.foldl_cons, List.foldl_nil]
  omega

theorem joined_dropLast (ts : List Nat) :
    joined 65536 ts = joined 65536 ts.dropLast * 2 ^ 16 + ts.getLastD 0 := by
  rcases List.eq_nil_or_concat ts with rfl | ⟨fs, g, rfl⟩
  · rfl
  · simp [joined, Nat.mul_comm]

/-- The number of an address that begins with at most four groups, with the others at its end. -/
theorem toNat_ofGroups_filled {hs ts : List Nat} (hfew : hs.length ≤ 4) (hlen : hs.length + ts.length ≤ 8)
    (hhs : ∀ g ∈ hs, g < 65536) (hts : ∀ g ∈ ts, g < 65536) :
    (ofGroups (filled hs ts)).toNat =
      joined 65536 hs * 65536 ^ (4 - hs.length) * 2 ^ 64 + joined 65536 ts := by
  have hcount : (filled hs ts).length = 8 := by
    simp only [filled, List.length_append, List.length_replicate]
    omega
  have hall : ∀ g ∈ filled hs ts, g < 65536 := by
    intro g hg
    simp only [filled, List.mem_append, List.mem_replicate] at hg
    rcases hg with (hg | ⟨-, rfl⟩) | hg
    · exact hhs g hg
    · decide
    · exact hts g hg
  have hlt := joined_lt (by decide) hall
  have hvalue : joined 65536 (filled hs ts) =
      joined 65536 hs * 65536 ^ (4 - hs.length) * 2 ^ 64 + joined 65536 ts := by
    have hpow : 65536 ^ (8 - hs.length - ts.length) * 65536 ^ ts.length =
        65536 ^ (4 - hs.length) * 2 ^ 64 := by
      rw [show (2 : Nat) ^ 64 = 65536 ^ 4 from rfl, ← Nat.pow_add, ← Nat.pow_add]
      congr 1
      omega
    rw [filled, joined_append, joined_append, joined_replicate_zero, List.length_replicate, Nat.add_zero,
      Nat.mul_assoc, hpow, Nat.mul_assoc]
  rw [hcount] at hlt
  calc (ofGroups (filled hs ts)).toNat = joined 65536 (filled hs ts) % 2 ^ 128 := BitVec.toNat_ofNat ..
    _ = joined 65536 (filled hs ts) := Nat.mod_eq_of_lt hlt
    _ = _ := hvalue

end Address
end Net
end TwinWall
