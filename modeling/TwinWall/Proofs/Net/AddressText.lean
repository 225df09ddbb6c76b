import Mathlib.Algebra.Group.Nat.Defs
import TwinWall.Net.Address
import TwinWall.Proofs.Text.Words

/-! The text of an address reads as that address again. The groups of the second family are followed
through the three forms in which they are written. -/
namespace TwinWall
namespace Net

open Text

theorem foldl_parts (b n a m : Nat) :
    (parts b n a).foldl (fun n d => b * n + d) m = m * b ^ n + a % b ^ n := by
  induction n generalizing m with
  | zero => simp [parts, Nat.mod_one]
  | succ n ih =>
    have hmod := Nat.mod_pow_succ (b := b) (k := n) (x := a)
    calc (parts b (n + 1) a).foldl (fun n d => b * n + d) m
        = (b * m + a / b ^ n % b) * b ^ n + a % b ^ n := ih _
      _ = m * b ^ (n + 1) + (a % b ^ n + b ^ n * (a / b ^ n % b)) := by
          rw [Nat.add_mul, Nat.pow_succ, Nat.mul_comm b m, Nat.mul_assoc, Nat.mul_comm b,
            Nat.mul_comm (a / b ^ n % b), Nat.add_assoc, Nat.add_comm (a % b ^ n)]
      _ = m * b ^ (n + 1) + a % b ^ (n + 1) := by rw [hmod]

/-- As many digits as the number has give it back. -/
theorem joined_parts {b n a : Nat} (h : a < b ^ n) : joined b (parts b n a) = a := by
  have hf := foldl_parts b n a 0
  rw [Nat.mod_eq_of_lt h] at hf
  simpa [joined] using hf

namespace Address

theorem octet?_repr {n : Nat} (h : n < 256) : octet? n.repr.toList = some n := by
  have hall : ∀ n < 256, octet? n.repr.toList = some n := by decide +kernel
  exact hall n h

theorem isDigit_of_mem_repr {n : Nat} {c : Char} (h : c ∈ n.repr.toList) : c.isDigit = true := by
  rw [Nat.toList_repr] at h
  exact Nat.isDigit_of_mem_toDigits (by omega) (by omega) h

theorem notMem_repr {n : Nat} {c : Char} (hc : c.isDigit = false) : c ∉ n.repr.toList := by
  intro h
  rw [isDigit_of_mem_repr h] at hc
  cases hc

theorem repr_ne_nil (n : Nat) : n.repr.toList ≠ [] := by
  rw [Nat.toList_repr]
  exact Nat.toDigits_ne_nil

theorem toList_dotted (l : List Nat) :
    (dotted l).toList = List.intercalate ['.'] (l.map fun n => n.repr.toList) := by
  simp [dotted, String.toList_intercalate, Function.comp_def]

theorem splitOn_dotted {l : List Nat} (h : l ≠ []) :
    (dotted l).toList.splitOn '.' = l.map fun n => n.repr.toList := by
  rw [toList_dotted]
  refine List.splitOn_intercalate '.' ?_ (by simpa using h)
  intro s hs
  obtain ⟨n, -, rfl⟩ := List.mem_map.1 hs
  exact notMem_repr (by decide)

theorem octets?_dotted {l : List Nat} (hlen : l.length = 4) (h : ∀ n ∈ l, n < 256) :
    octets? (dotted l).toList = some l := by
  match l, hlen with
  | [a, b, c, d], _ =>
    have hread := mapM_map_eq_some (g := fun n => n.repr.toList)
      fun n hn => octet?_repr (h n hn)
    rw [octets?, splitOn_dotted (by simp)]
    exact hread

theorem mem_dotted {l : List Nat} {c : Char} (h : c ∈ (dotted l).toList) :
    c = '.' ∨ c.isDigit = true := by
  rcases mem_intercalate h with h | ⟨w, hw, h⟩
  · exact Or.inl (by simpa using h)
  · obtain ⟨n, -, rfl⟩ := List.mem_map.1 hw
    exact Or.inr (isDigit_of_mem_repr h)

theorem mem_octets {a : Address .v4} {n : Nat} (h : n ∈ octets a) : n < 256 :=
  lt_of_mem_parts (by omega) h

theorem mem_groups {a : Address .v6} {n : Nat} (h : n ∈ groups a) : n < 65536 :=
  lt_of_mem_parts (by omega) h

theorem ofOctets_octets (a : Address .v4) : ofOctets (octets a) = a := by
  have h : a.toNat < 256 ^ 4 := a.isLt
  rw [ofOctets, octets, joined_parts h]
  exact BitVec.ofNat_toNat 32 a

theorem ofGroups_groups (a : Address .v6) : ofGroups (groups a) = a := by
  have h : a.toNat < 65536 ^ 8 := a.isLt
  rw [ofGroups, groups, joined_parts h]
  exact BitVec.ofNat_toNat 128 a

theorem hexFrom_append (n : Nat) (ds es : List Nat) :
    hexFrom n (ds ++ es) = hexFrom (hexFrom n ds) es := by
  induction ds generalizing n with
  | nil => rfl
  | cons d ds ih => simp [hexFrom, ih]

theorem mapM_hexValue?_toDigits (n : Nat) :
    ∃ ds, (Nat.toDigits 16 n).mapM hexValue? = some ds ∧ hexFrom 0 ds = n := by
  induction n using Nat.strongRecOn with
  | _ n ih =>
    by_cases h : n < 16
    · refine ⟨[n], ?_, by simp [hexFrom]⟩
      simp [Nat.toDigits_of_lt_base h, hexValue?_digitChar h]
    · obtain ⟨ds, hds, hv⟩ := ih (n / 16) (by omega)
      refine ⟨ds ++ [n % 16], ?_, ?_⟩
      · rw [Nat.toDigits_of_base_le (by omega) (by omega)]
        simp [List.mapM_append, hds, hexValue?_digitChar (Nat.mod_lt n (by omega : 0 < 16))]
      · rw [hexFrom_append, hv]
        simp [hexFrom]
        omega

theorem toList_hexText (n : Nat) : (hexText n).toList = Nat.toDigits 16 n := by
  simp [hexText]

theorem hex?_hexText (n : Nat) : hex? (hexText n).toList = some n := by
  obtain ⟨ds, hds, hv⟩ := mapM_hexValue?_toDigits n
  have hne : Nat.toDigits 16 n ≠ [] := Nat.toDigits_ne_nil
  simp [hex?, toList_hexText, hds, hv, hne]

theorem group?_hexText {n : Nat} (h : n < 65536) : group? (hexText n).toList = some n := by
  have hlen : (hexText n).toList.length ≤ 4 := by
    rw [toList_hexText, Nat.length_toDigits_le_iff (by omega) (by omega)]
    exact h
  rw [group?, if_pos hlen, hex?_hexText]

theorem isHex_of_mem_hexText {n : Nat} {c : Char} (h : c ∈ (hexText n).toList) :
    isHex c = true := by
  obtain ⟨ds, hds, -⟩ := mapM_hexValue?_toDigits n
  rw [toList_hexText] at h
  exact isSome_of_mapM hds c h

theorem notMem_hexText {n : Nat} {c : Char} (hc : isHex c = false) : c ∉ (hexText n).toList := by
  intro h
  rw [isHex_of_mem_hexText h] at hc
  cases hc

theorem hexText_ne_nil (n : Nat) : (hexText n).toList ≠ [] := by
  rw [toList_hexText]
  exact Nat.toDigits_ne_nil

theorem toList_colonGroups (l : List Nat) :
    (colonGroups l).toList = List.intercalate [':'] (l.map fun n => (hexText n).toList) := by
  simp [colonGroups, String.toList_intercalate, Function.comp_def]

theorem toList_colonGroups_cons (n m : Nat) (l : List Nat) :
    (colonGroups (n :: m :: l)).toList =
      (hexText n).toList ++ ':' :: (colonGroups (m :: l)).toList := by
  simp [toList_colonGroups, List.intercalate_cons_cons]

theorem toList_colonGroups_singleton (n : Nat) :
    (colonGroups [n]).toList = (hexText n).toList := by
  simp [colonGroups]

theorem head?_colonGroups {n : Nat} {l : List Nat} :
    ∃ c s, (colonGroups (n :: l)).toList = c :: s ∧ isHex c = true := by
  obtain ⟨c, s, hs⟩ := List.exists_cons_of_ne_nil (hexText_ne_nil n)
  have hc : isHex c = true := isHex_of_mem_hexText (n := n) (by simp [hs])
  cases l with
  | nil => exact ⟨c, s, by rw [toList_colonGroups_singleton, hs], hc⟩
  | cons m l => exact ⟨c, s ++ ':' :: (colonGroups (m :: l)).toList,
      by rw [toList_colonGroups_cons, hs, List.cons_append], hc⟩

theorem groupList?_hexText {dots : Bool} {l : List Nat} (h : ∀ n ∈ l, n < 65536) :
    groupList? dots (l.map fun n => (hexText n).toList) = some l := by
  induction l with
  | nil => rfl
  | cons n l ih =>
    have hn := group?_hexText (h n (by simp))
    have ih := ih fun m hm => h m (by simp [hm])
    cases l with
    | nil => simp only [List.map, groupList?, hn]
    | cons m l =>
      simp only [List.map, groupList?, hn, Option.bind_eq_bind, Option.bind_some] at ih ⊢
      rw [ih]
      rfl

theorem groups?_colonGroups {dots : Bool} {l : List Nat} (h : ∀ n ∈ l, n < 65536) :
    groups? dots (colonGroups l).toList = some l := by
  cases l with
  | nil => rfl
  | cons n l =>
    obtain ⟨c, s, hs, -⟩ := head?_colonGroups (n := n) (l := l)
    have hsplit : (colonGroups (n :: l)).toList.splitOn ':' =
        (n :: l).map fun n => (hexText n).toList := by
      rw [toList_colonGroups]
      refine List.splitOn_intercalate ':' ?_ (by simp)
      intro w hw
      obtain ⟨m, -, rfl⟩ := List.mem_map.1 hw
      exact notMem_hexText (by decide)
    have hne : (colonGroups (n :: l)).toList.isEmpty = false := by simp [hs]
    rw [groups?, hne, hsplit]
    exact groupList?_hexText h

theorem splitDouble_word {w s : List Char} (hw : ':' ∉ w) :
    splitDouble (w ++ s) = (splitDouble s).map fun p => (w ++ p.1, p.2) := by
  induction w with
  | nil => simp
  | cons c w ih =>
    have hc : c ≠ ':' := fun h => hw (by simp [h])
    have ih := ih fun h => hw (by simp [h])
    rw [List.cons_append, splitDouble, ih]
    · cases splitDouble s <;> rfl
    · rintro r rfl
      exact absurd rfl hc

theorem splitDouble_colon {c : Char} {s : List Char} (hc : c ≠ ':') :
    splitDouble (':' :: c :: s) = (splitDouble (c :: s)).map fun p => (':' :: p.1, p.2) := by
  rw [splitDouble]
  rintro r - h
  exact hc (List.cons.inj h).1

/-- Between groups there is no double colon, so what comes behind them decides. -/
theorem splitDouble_colonGroups {l : List Nat} {s : List Char} :
    splitDouble ((colonGroups l).toList ++ s) =
      (splitDouble s).map fun p => ((colonGroups l).toList ++ p.1, p.2) := by
  induction l with
  | nil => simp [colonGroups]
  | cons n l ih =>
    have hn : ':' ∉ (hexText n).toList := notMem_hexText (by decide)
    cases l with
    | nil =>
      rw [toList_colonGroups_singleton]
      exact splitDouble_word hn
    | cons m l =>
      obtain ⟨c, r, hr, hc⟩ := head?_colonGroups (n := m) (l := l)
      have hne : c ≠ ':' := by
        rintro rfl
        exact absurd hc (by decide)
      rw [toList_colonGroups_cons, List.append_assoc, splitDouble_word hn, List.cons_append, hr,
        List.cons_append, splitDouble_colon hne, ← List.cons_append, ← hr, ih]
      cases splitDouble s <;> simp

theorem take_leadingZeros (l : List Nat) :
    List.replicate (leadingZeros l) 0 ++ l.drop (leadingZeros l) = l := by
  induction l with
  | nil => rfl
  | cons n l ih =>
    by_cases hn : n = 0
    · simp only [leadingZeros] at ih
      simp [leadingZeros, hn, List.replicate_succ, ih]
    · simp [leadingZeros, hn]

theorem leadingZeros_le (l : List Nat) : leadingZeros l ≤ l.length :=
  (List.takeWhile_sublist _).length_le

/-- The run that is left out is one of zeros. -/
theorem longestZeros_split (l : List Nat) :
    l.take (longestZeros l).1 ++ List.replicate (longestZeros l).2 0 ++
      l.drop ((longestZeros l).1 + (longestZeros l).2) = l := by
  induction l with
  | nil => rfl
  | cons n l ih =>
    by_cases h : (longestZeros l).2 ≤ leadingZeros (n :: l)
    · simp only [longestZeros, if_pos h, List.take_zero, List.nil_append, Nat.zero_add]
      exact take_leadingZeros (n :: l)
    · simp only [longestZeros, if_neg h]
      rw [Nat.add_right_comm, List.drop_succ_cons, List.take_succ_cons, List.cons_append,
        List.cons_append, ih]

theorem longestZeros_le (l : List Nat) : (longestZeros l).1 + (longestZeros l).2 ≤ l.length := by
  induction l with
  | nil => simp [longestZeros]
  | cons n l ih =>
    by_cases h : (longestZeros l).2 ≤ leadingZeros (n :: l)
    · simpa [longestZeros, if_pos h] using leadingZeros_le (n :: l)
    · simp only [longestZeros, if_neg h, List.length_cons]
      omega

theorem allGroups?_elided {h t : List Nat} (hh : ∀ n ∈ h, n < 65536) (ht : ∀ n ∈ t, n < 65536)
    (hlen : h.length + t.length ≤ 7) :
    allGroups? ((colonGroups h).toList ++ ':' :: ':' :: (colonGroups t).toList) =
      some (h ++ List.replicate (8 - h.length - t.length) 0 ++ t) := by
  have hsplit : splitDouble ((colonGroups h).toList ++ ':' :: ':' :: (colonGroups t).toList) =
      some ((colonGroups h).toList, (colonGroups t).toList) := by
    rw [splitDouble_colonGroups, splitDouble]
    simp
  simp [allGroups?, hsplit, groups?_colonGroups hh, groups?_colonGroups ht, hlen]

theorem allGroups?_colonGroups {l : List Nat} (hl : ∀ n ∈ l, n < 65536) (hlen : l.length = 8) :
    allGroups? (colonGroups l).toList = some l := by
  have hsplit : splitDouble (colonGroups l).toList = none := by
    have h := splitDouble_colonGroups (l := l) (s := [])
    simpa [splitDouble] using h
  simp [allGroups?, hsplit, groups?_colonGroups hl, hlen]

theorem group?_dotted {l : List Nat} (hlen : l.length = 4) : group? (dotted l).toList = none := by
  have hlong : 4 < (dotted l).toList.length := by
    match l, hlen with
    | [a, b, c, d], _ =>
      have ha := List.length_pos_iff.2 (repr_ne_nil a)
      have hb := List.length_pos_iff.2 (repr_ne_nil b)
      have hc := List.length_pos_iff.2 (repr_ne_nil c)
      have hd := List.length_pos_iff.2 (repr_ne_nil d)
      simp only [toList_dotted, List.map, List.intercalate_cons_cons, List.intercalate_singleton,
        List.length_append, List.length_singleton]
      omega
  exact if_neg (by omega)

theorem joined_octets (n : Nat) : joined 256 [n / 256, n % 256] = n := by
  simp only [joined, List.foldl]
  omega

/-- The two groups behind the mark of a mapped address are written as four octets. -/
theorem allGroups?_mapped {g h : Nat} (hg : g < 65536) (hh : h < 65536) :
    allGroups? ("::ffff:" ++ dotted [g / 256, g % 256, h / 256, h % 256]).toList =
      some [0, 0, 0, 0, 0, 65535, g, h] := by
  have hlt : ∀ n ∈ [g / 256, g % 256, h / 256, h % 256], n < 256 := by
    intro n hn
    simp only [List.mem_cons, List.not_mem_nil, or_false] at hn
    omega
  have hread := octets?_dotted (by rfl) hlt
  have hgroup := group?_dotted (l := [g / 256, g % 256, h / 256, h % 256]) (by rfl)
  have hcolon : ':' ∉ (dotted [g / 256, g % 256, h / 256, h % 256]).toList := by
    intro hm
    rcases mem_dotted hm with h | h
    · cases h
    · cases h
  rw [String.toList_append]
  generalize (dotted [g / 256, g % 256, h / 256, h % 256]).toList = d at *
  have hsplit : ('f' :: 'f' :: 'f' :: 'f' :: ':' :: d).splitOn ':' = [['f', 'f', 'f', 'f'], d] := by
    have hs := List.splitOn_append_cons_of_beq ['f', 'f', 'f', 'f'] d (beq_self_eq_true ':')
    rwa [List.splitOn_eq_singleton hcolon] at hs
  have hf : group? ['f', 'f', 'f', 'f'] = some 65535 := by decide
  have htail : groups? true ('f' :: 'f' :: 'f' :: 'f' :: ':' :: d) = some [65535, g, h] := by
    simp [groups?, hsplit, groupList?, hf, hgroup, hread, joined_octets]
  have hdouble : splitDouble (':' :: ':' :: 'f' :: 'f' :: 'f' :: 'f' :: ':' :: d) =
      some ([], 'f' :: 'f' :: 'f' :: 'f' :: ':' :: d) := by
    rw [splitDouble]
  have htext : "::ffff:".toList ++ d = ':' :: ':' :: 'f' :: 'f' :: 'f' :: 'f' :: ':' :: d := by
    simp
  have hhead : groups? false [] = some [] := rfl
  rw [htext, allGroups?, hdouble]
  simp only [hhead, htail, Option.bind_eq_bind, Option.bind_some]
  rfl

theorem eq_of_isMapped {l : List Nat} (hlen : l.length = 8) (h : isMapped l = true) :
    ∃ g k, l = [0, 0, 0, 0, 0, 65535, g, k] := by
  match l, hlen with
  | [a, b, c, d, e, f, g, k], _ =>
    simp only [isMapped, Bool.and_eq_true, decide_eq_true_eq] at h
    obtain ⟨hzero, hmark⟩ := h
    simp only [List.getElem?_cons_succ, List.getElem?_cons_zero, Option.some.injEq] at hmark
    obtain ⟨rfl, rfl, rfl, rfl, rfl⟩ : a = 0 ∧ b = 0 ∧ c = 0 ∧ d = 0 ∧ e = 0 := by
      simpa using hzero
    exact ⟨g, k, by rw [hmark]⟩

theorem allGroups?_groupText {l : List Nat} (hlen : l.length = 8) (h : ∀ n ∈ l, n < 65536) :
    allGroups? (groupText l).toList = some l := by
  by_cases hm : isMapped l = true
  · obtain ⟨g, k, rfl⟩ := eq_of_isMapped hlen hm
    rw [groupText, if_pos hm]
    exact allGroups?_mapped (h g (by simp)) (h k (by simp))
  · rw [groupText, if_neg hm]
    have hsplit := longestZeros_split l
    have hle := longestZeros_le l
    generalize longestZeros l = z at *
    obtain ⟨start, run⟩ := z
    by_cases hrun : 2 ≤ run
    · have hh : ∀ n ∈ l.take start, n < 65536 := fun n hn => h n (List.mem_of_mem_take hn)
      have ht : ∀ n ∈ l.drop (start + run), n < 65536 := fun n hn => h n (List.mem_of_mem_drop hn)
      simp only at hle hsplit
      have hlen7 : (l.take start).length + (l.drop (start + run)).length ≤ 7 := by
        rw [List.length_take, List.length_drop]
        omega
      have hcount : 8 - (l.take start).length - (l.drop (start + run)).length = run := by
        rw [List.length_take, List.length_drop]
        omega
      have hread := allGroups?_elided hh ht hlen7
      rw [hcount, hsplit] at hread
      simpa [hrun] using hread
    · simpa [hrun] using allGroups?_colonGroups h hlen

/-- The text of an address reads as the address. -/
theorem read?_text (f : Family) (a : Address f) : read? f (a.text f).toList = some a := by
  cases f with
  | v4 =>
    have h := octets?_dotted (length_parts 256 4 a.toNat) fun n hn => mem_octets hn
    rw [read?, text, octets, h, Option.map_some]
    exact congrArg some (ofOctets_octets a)
  | v6 =>
    have h := allGroups?_groupText (length_parts 65536 8 a.toNat) fun n hn => mem_groups hn
    rw [read?, text, groups, h, Option.map_some]
    exact congrArg some (ofGroups_groups a)

theorem text_injective {f : Family} {a b : Address f} (h : a.text f = b.text f) : a = b := by
  have hread := read?_text f a
  rw [h, read?_text] at hread
  exact (Option.some.inj hread).symm

end Address
end Net
end TwinWall
