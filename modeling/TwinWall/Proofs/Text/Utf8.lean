import TwinWall.Text.Utf8
import TwinWall.Proofs.Text.Words
import Mathlib.Tactic.Common

/-! Texts that are written in UTF-8 and read back, alone or behind others. -/
namespace TwinWall
namespace Text
namespace Utf8

section Ranges

variable {a b : UInt8}

theorem isTail_iff : isTail b = true ↔ 0x80 ≤ b.toNat ∧ b.toNat ≤ 0xbf := by
  simp [isTail, UInt8.le_iff_toNat_le]

theorem fitsThree_iff : fitsThree a b = true ↔
    if a.toNat = 0xe0 then 0xa0 ≤ b.toNat ∧ b.toNat ≤ 0xbf
    else if a.toNat = 0xed then 0x80 ≤ b.toNat ∧ b.toNat ≤ 0x9f
    else 0x80 ≤ b.toNat ∧ b.toNat ≤ 0xbf := by
  have h0 : a = 0xe0 ↔ a.toNat = 0xe0 := UInt8.toNat_inj.symm
  have h1 : a = 0xed ↔ a.toNat = 0xed := UInt8.toNat_inj.symm
  rw [fitsThree]
  split_ifs <;> simp_all [UInt8.le_iff_toNat_le, isTail_iff]

theorem fitsFour_iff : fitsFour a b = true ↔
    if a.toNat = 0xf0 then 0x90 ≤ b.toNat ∧ b.toNat ≤ 0xbf
    else if a.toNat = 0xf4 then 0x80 ≤ b.toNat ∧ b.toNat ≤ 0x8f
    else 0x80 ≤ b.toNat ∧ b.toNat ≤ 0xbf := by
  have h0 : a = 0xf0 ↔ a.toNat = 0xf0 := UInt8.toNat_inj.symm
  have h1 : a = 0xf4 ↔ a.toNat = 0xf4 := UInt8.toNat_inj.symm
  rw [fitsFour]
  split_ifs <;> simp_all [UInt8.le_iff_toNat_le, isTail_iff]

end Ranges

section Letters

/-- The octets that are read as one character. -/
inductive Letter : List UInt8 → Char → Prop
  | one {a : UInt8} (first : a < 0x80) : Letter [a] (Char.ofNat a.toNat)
  | two {a b : UInt8} (high : ¬ a < 0x80) (first : (0xc2 ≤ a && a ≤ 0xdf) = true)
    (second : isTail b = true) : Letter [a, b] (Char.ofNat (a.toNat % 32 * 64 + low b))
  | three {a b c : UInt8} (high : ¬ a < 0x80) (higher : ¬ (0xc2 ≤ a && a ≤ 0xdf) = true)
    (first : (0xe0 ≤ a && a ≤ 0xef) = true) (second : fitsThree a b = true)
    (third : isTail c = true) :
    Letter [a, b, c] (Char.ofNat ((a.toNat % 16 * 64 + low b) * 64 + low c))
  | four {a b c d : UInt8} (high : ¬ a < 0x80) (higher : ¬ (0xc2 ≤ a && a ≤ 0xdf) = true)
    (highest : ¬ (0xe0 ≤ a && a ≤ 0xef) = true) (first : (0xf0 ≤ a && a ≤ 0xf4) = true)
    (second : fitsFour a b = true) (third : isTail c = true) (fourth : isTail d = true) :
    Letter [a, b, c, d] (Char.ofNat (((a.toNat % 8 * 64 + low b) * 64 + low c) * 64 + low d))

theorem scan_letter {u : List UInt8} {c : Char} (h : Letter u c) (r : List UInt8) :
    scan (u ++ r) = some c :: scan r := by
  cases h with
  | one first =>
    rw [List.cons_append, List.nil_append, scan.eq_def]
    simp only [first, if_true]
  | two high first second =>
    rw [List.cons_append, List.cons_append, List.nil_append, scan, if_neg high, if_pos first]
    simp only [second, if_true]
  | three high higher first second third =>
    rw [List.cons_append, List.cons_append, List.cons_append, List.nil_append, scan, if_neg high,
      if_neg higher, if_pos first]
    simp only [second, third, if_true]
  | four high higher highest first second third fourth =>
    rw [List.cons_append, List.cons_append, List.cons_append, List.cons_append, List.nil_append, scan,
      if_neg high, if_neg higher, if_neg highest, if_pos first]
    simp only [second, third, fourth, if_true]

/-- What has no flaw is read in the same way in front of anything. -/
theorem scan_append {b : List UInt8} (h : none ∉ scan b) (r : List UInt8) :
    scan (b ++ r) = scan b ++ scan r := by
  have hnext : ∀ {u b' : List UInt8} {c : Char}, Letter u c →
      (none ∉ scan b' → scan (b' ++ r) = scan b' ++ scan r) → none ∉ some c :: scan b' →
      scan (u ++ b' ++ r) = some c :: scan b' ++ scan r := by
    intro u b' c hu ih hb'
    rw [List.append_assoc, scan_letter hu, ih (fun hmem => hb' (List.mem_cons_of_mem _ hmem)),
      List.cons_append]
  fun_induction scan b with
  | case1 => rfl
  | case2 a b' ha ih => exact hnext (.one ha) ih h
  | case3 a ha hfirst b b' hb ih => exact hnext (.two ha hfirst hb) ih h
  | case6 a ha hhigh hfirst b c b' hb hc ih => exact hnext (.three ha hhigh hfirst hb hc) ih h
  | case12 a ha hhigh hhigher hfirst b c d b' hb hc hd ih =>
    exact hnext (.four ha hhigh hhigher hfirst hb hc hd) ih h
  | _ => exact absurd List.mem_cons_self h

end Letters

section Written

variable {n : Nat}

theorem toNat_ofNat_of_lt (h : n < 256) : (UInt8.ofNat n).toNat = n := UInt8.toNat_ofNat_of_lt' h

theorem letter_one (h : n ≤ 0x7f) : Letter [UInt8.ofNat n] (Char.ofNat n) := by
  have ha := toNat_ofNat_of_lt (n := n) (by omega)
  have hletter := Letter.one (a := UInt8.ofNat n) (by rw [UInt8.lt_iff_toNat_lt, ha]; simp; omega)
  rwa [ha] at hletter

theorem letter_two (hlow : 0x7f < n) (h : n ≤ 0x7ff) :
    Letter [UInt8.ofNat (n / 64 % 0x20 + 0xc0), UInt8.ofNat (n % 0x40 + 0x80)] (Char.ofNat n) := by
  have ha := toNat_ofNat_of_lt (n := n / 64 % 0x20 + 0xc0) (by omega)
  have hb := toNat_ofNat_of_lt (n := n % 0x40 + 0x80) (by omega)
  have hletter := Letter.two (a := UInt8.ofNat (n / 64 % 0x20 + 0xc0))
    (b := UInt8.ofNat (n % 0x40 + 0x80)) (by rw [UInt8.lt_iff_toNat_lt, ha]; simp)
    (by simp [UInt8.le_iff_toNat_le]; omega) (by rw [isTail_iff, hb]; omega)
  have hvalue : (n / 64 % 0x20 + 0xc0) % 32 * 64 + (n % 0x40 + 0x80) % 64 = n := by omega
  rwa [low, ha, hb, hvalue] at hletter

theorem letter_three (hlow : 0x7ff < n) (h : n ≤ 0xffff) (hpair : n < 0xd800 ∨ 0xdfff < n) :
    Letter [UInt8.ofNat (n / 4096 % 0x10 + 0xe0), UInt8.ofNat (n / 64 % 0x40 + 0x80),
      UInt8.ofNat (n % 0x40 + 0x80)] (Char.ofNat n) := by
  have ha := toNat_ofNat_of_lt (n := n / 4096 % 0x10 + 0xe0) (by omega)
  have hb := toNat_ofNat_of_lt (n := n / 64 % 0x40 + 0x80) (by omega)
  have hc := toNat_ofNat_of_lt (n := n % 0x40 + 0x80) (by omega)
  have hletter := Letter.three (a := UInt8.ofNat (n / 4096 % 0x10 + 0xe0))
    (b := UInt8.ofNat (n / 64 % 0x40 + 0x80)) (c := UInt8.ofNat (n % 0x40 + 0x80))
    (by rw [UInt8.lt_iff_toNat_lt, ha]; simp) (by simp [UInt8.le_iff_toNat_le]; omega)
    (by simp [UInt8.le_iff_toNat_le]; omega)
    (by rw [fitsThree_iff, ha, hb]; split_ifs <;> omega) (by rw [isTail_iff, hc]; omega)
  have hvalue : ((n / 4096 % 0x10 + 0xe0) % 16 * 64 + (n / 64 % 0x40 + 0x80) % 64) * 64 +
      (n % 0x40 + 0x80) % 64 = n := by omega
  rwa [low, low, ha, hb, hc, hvalue] at hletter

theorem letter_four (hlow : 0xffff < n) (h : n < 0x110000) :
    Letter [UInt8.ofNat (n / 262144 % 0x08 + 0xf0), UInt8.ofNat (n / 4096 % 0x40 + 0x80),
      UInt8.ofNat (n / 64 % 0x40 + 0x80), UInt8.ofNat (n % 0x40 + 0x80)] (Char.ofNat n) := by
  have ha := toNat_ofNat_of_lt (n := n / 262144 % 0x08 + 0xf0) (by omega)
  have hb := toNat_ofNat_of_lt (n := n / 4096 % 0x40 + 0x80) (by omega)
  have hc := toNat_ofNat_of_lt (n := n / 64 % 0x40 + 0x80) (by omega)
  have hd := toNat_ofNat_of_lt (n := n % 0x40 + 0x80) (by omega)
  have hletter := Letter.four (a := UInt8.ofNat (n / 262144 % 0x08 + 0xf0))
    (b := UInt8.ofNat (n / 4096 % 0x40 + 0x80)) (c := UInt8.ofNat (n / 64 % 0x40 + 0x80))
    (d := UInt8.ofNat (n % 0x40 + 0x80)) (by rw [UInt8.lt_iff_toNat_lt, ha]; simp)
    (by simp [UInt8.le_iff_toNat_le]; omega) (by simp [UInt8.le_iff_toNat_le]; omega)
    (by simp [UInt8.le_iff_toNat_le]; omega)
    (by rw [fitsFour_iff, ha, hb]; split_ifs <;> omega) (by rw [isTail_iff, hc]; omega)
    (by rw [isTail_iff, hd]; omega)
  have hvalue : (((n / 262144 % 0x08 + 0xf0) % 8 * 64 + (n / 4096 % 0x40 + 0x80) % 64) * 64 +
      (n / 64 % 0x40 + 0x80) % 64) * 64 + (n % 0x40 + 0x80) % 64 = n := by omega
  rwa [low, low, low, ha, hb, hc, hd, hvalue] at hletter

/-- A character is written as octets that are read as it. -/
theorem letter_encode (c : Char) : Letter (String.utf8EncodeChar c) c := by
  have hvalid := c.valid
  have hval : c.val.toNat = c.toNat := rfl
  rw [UInt32.isValidChar, Nat.isValidChar, hval] at hvalid
  have hletter : Letter (String.utf8EncodeChar c) (Char.ofNat c.toNat) := by
    rw [String.utf8EncodeChar, hval]
    split_ifs with hone htwo hthree
    · exact letter_one hone
    · exact letter_two (by omega) htwo
    · exact letter_three (by omega) hthree (by omega)
    · exact letter_four (by omega) (by omega)
  rwa [Char.ofNat_toNat] at hletter

end Written

section Texts

theorem scan_encode (s : List Char) (r : List UInt8) :
    scan (s.flatMap String.utf8EncodeChar ++ r) = s.map some ++ scan r := by
  induction s with
  | nil => rfl
  | cons c s ih =>
    rw [List.flatMap_cons, List.append_assoc, scan_letter (letter_encode c), ih]
    rfl

theorem mapM_id_eq_some {l : List (Option Char)} {s : List Char} : l.mapM id = some s ↔ l = s.map some := by
  constructor
  · intro h
    induction l generalizing s with
    | nil =>
      cases h
      rfl
    | cons o l ih =>
      rw [List.mapM_cons] at h
      obtain ⟨c, ho, h⟩ := Option.bind_eq_some_iff.1 h
      obtain ⟨t, ht, h⟩ := Option.bind_eq_some_iff.1 h
      cases h
      rw [List.map_cons, ih ht]
      exact congrArg (· :: _) ho
  · rintro rfl
    exact mapM_map_eq_some fun _ _ => rfl

/-- Octets are a text just if the text is what is found in them. -/
theorem decode?_eq_some {b : List UInt8} {s : String} :
    decode? b = some s ↔ scan b = s.toList.map some := by
  rw [decode?, Option.map_eq_some_iff]
  constructor
  · rintro ⟨t, ht, rfl⟩
    rw [String.toList_ofList]
    exact mapM_id_eq_some.1 ht
  · intro h
    exact ⟨s.toList, mapM_id_eq_some.2 h, String.ofList_toList⟩

/-- A text behind another one. -/
theorem decode?_append {b : List UInt8} {s : String} (h : decode? b = some s) (t : String) :
    decode? (b ++ encode t) = some (s ++ t) := by
  have hscan := decode?_eq_some.1 h
  have hnone : none ∉ scan b := by simp [hscan]
  have ht := scan_encode t.toList []
  rw [List.append_nil, scan, List.append_nil] at ht
  rw [decode?_eq_some, scan_append hnone, hscan, encode, ht, String.toList_append, List.map_append]

/-- A text that is written is read back. -/
theorem decode?_encode (s : String) : decode? (encode s) = some s := by
  have h := decode?_append (b := []) (s := "") rfl s
  rwa [List.nil_append, String.empty_append] at h

end Texts

end Utf8
end Text
end TwinWall
