import TwinWall.Audit.Moment
import TwinWall.Audit.RunId
import TwinWall.Proofs.Decimal.Numeral
import TwinWall.Proofs.Net.AddressText

/-! Moments and identifiers of runs that are written and read back. The numbers of a moment have as many digits
as are read of them, but for a year with a sign, which ends at the mark behind it. -/
namespace TwinWall
namespace Audit

open Decimal Net

/-- The moments there are: a day of the calendar, and a time of day to the nanosecond. -/
structure Moment.Valid (m : Moment) : Prop where
  date : m.date.isValid = true
  minute : m.minute < Moment.minutesOfDay
  second : m.second ≤ 60
  nanosecond : m.nanosecond < 1000000000

section Padded

/-- Zeros in front of a number are read one by one. -/
theorem mapM_replicate {α β : Type} {f : α → Option β} {a : α} {b : β} (h : f a = some b) (k : Nat) :
    (List.replicate k a).mapM f = some (List.replicate k b) := by
  rw [← List.map_replicate (f := fun _ => a) (a := b)]
  exact Text.mapM_map_eq_some fun x hx => by rw [List.eq_of_mem_replicate hx, h]

theorem toList_padded (width n : Nat) : (padded width n).toList =
    List.replicate (width - (Nat.toDigits 10 n).length) '0' ++ Nat.toDigits 10 n := by
  simp [padded, List.leftpad]

theorem isDigit_of_mem_padded {width n : Nat} {c : Char} (h : c ∈ (padded width n).toList) :
    c.isDigit = true := by
  rw [toList_padded, List.mem_append] at h
  rcases h with h | h
  · rw [List.eq_of_mem_replicate h]
    rfl
  · exact Nat.isDigit_of_mem_toDigits (by decide) (by decide) h

theorem padded_ne_nil (width n : Nat) : (padded width n).toList ≠ [] := by
  rw [toList_padded]
  exact List.append_ne_nil_of_right_ne_nil _ Nat.toDigits_ne_nil

theorem length_padded_eq {width n : Nat} (hwidth : 0 < width) (h : n < 10 ^ width) :
    (padded width n).toList.length = width := by
  have hle := (Nat.length_toDigits_le_iff (by decide) hwidth).2 h
  rw [toList_padded, List.length_append, List.length_replicate]
  omega

theorem valueFrom_replicate_zero (k : Nat) : valueFrom 0 (List.replicate k 0) = 0 := by
  induction k with
  | zero => rfl
  | succ k ih => rw [List.replicate_succ, valueFrom, ih]

/-- Zeros in front change nothing. -/
theorem digits?_padded (width n : Nat) : digits? (padded width n).toList = some n := by
  obtain ⟨ds, hds, hvalue⟩ := mapM_digit?_toDigits n
  have hzero : digit? '0' = some 0 := rfl
  have hread : (padded width n).toList.mapM digit? =
      some (List.replicate (width - (Nat.toDigits 10 n).length) 0 ++ ds) := by
    rw [toList_padded, List.mapM_append, mapM_replicate hzero, hds]
    rfl
  have hempty : ¬ (padded width n).toList.isEmpty = true := by
    simpa using padded_ne_nil width n
  rw [digits?, if_neg hempty, hread, Option.map_some, valueFrom_append, valueFrom_replicate_zero,
    hvalue]

end Padded

namespace Moment

variable {most n : Nat} {t r : List Char}

/-- The digits that are taken end with their number or before something else. -/
theorem digitsUpTo_append (hn : digits? t = some n) (hdigits : ∀ c ∈ t, c.isDigit = true)
    (hlen : t.length ≤ most) (hend : t.length = most ∨ ∀ c ∈ r.head?, c.isDigit = false) :
    digitsUpTo most (t ++ r) = some (n, r) := by
  have hrest : (r.take (most - t.length)).takeWhile Char.isDigit = [] := by
    rcases hend with hend | hend
    · rw [hend, Nat.sub_self]
      rfl
    · cases r with
      | nil => rw [List.take_nil, List.takeWhile_nil]
      | cons c r =>
        have hc := hend c rfl
        cases most - t.length with
        | zero => rfl
        | succ k => rw [List.take_succ_cons, List.takeWhile_cons_of_neg (by simp [hc])]
  have htaken : ((t ++ r).take most).takeWhile Char.isDigit = t := by
    rw [List.take_append, List.take_of_length_le hlen, List.takeWhile_append_of_pos hdigits, hrest,
      List.append_nil]
  simp [digitsUpTo, htaken, hn]

theorem isBlank_of_isDigit {c : Char} (h : c.isDigit = true) : Text.isBlank c = false :=
  Text.of_forall_ascii (P := fun c => c.isDigit = true → Text.isBlank c = false) (by decide)
    (Text.toNat_lt_of_isDigit h) h

theorem dropBlanks_digits (hne : t ≠ []) (hdigits : ∀ c ∈ t, c.isDigit = true) (r : List Char) :
    Text.dropBlanks (t ++ r) = t ++ r := by
  obtain ⟨c, s, rfl⟩ := List.exists_cons_of_ne_nil hne
  exact Text.dropBlanks_eq_self (isBlank_of_isDigit (hdigits c List.mem_cons_self))

theorem dropBlanks_padded (width n : Nat) (r : List Char) :
    Text.dropBlanks ((padded width n).toList ++ r) = (padded width n).toList ++ r :=
  dropBlanks_digits (padded_ne_nil width n) (fun _ => isDigit_of_mem_padded) r

theorem digitsUpTo_padded {width : Nat} (hwidth : 0 < width) (h : n < 10 ^ width) (r : List Char) :
    digitsUpTo width ((padded width n).toList ++ r) = some (n, r) := by
  have hlen := length_padded_eq hwidth h
  exact digitsUpTo_append (digits?_padded width n) (fun _ => isDigit_of_mem_padded) (Nat.le_of_eq hlen)
    (.inl hlen)

theorem numberFrom_padded (h : n < 100) (r : List Char) :
    numberFrom 2 ((padded 2 n).toList ++ r) = some (n, r) := by
  rw [numberFrom, dropBlanks_padded]
  exact digitsUpTo_padded (by decide) h r

theorem skipMark_cons {c : Char} (hc : Text.isBlank c = false) (r : List Char) :
    skipMark c (c :: r) = some r := by
  rw [skipMark, Text.dropBlanks_eq_self hc]
  simp

/-- Behind a sign all digits are taken. -/
theorem digitsUpTo_signed (n : Nat) (hr : ∀ c ∈ r.head?, c.isDigit = false) :
    digitsUpTo ((padded 4 n).toList ++ r).length ((padded 4 n).toList ++ r) = some (n, r) :=
  digitsUpTo_append (digits?_padded 4 n) (fun _ => isDigit_of_mem_padded) (by simp) (.inr hr)

theorem yearFrom_yearText (year : Int) (hr : ∀ c ∈ r.head?, c.isDigit = false) :
    yearFrom ((yearText year).toList ++ r) = some (year, r) := by
  rw [yearText]
  split
  · next hyear =>
    have hlt : year.toNat < 10 ^ 4 := by omega
    have hread := digitsUpTo_padded (by decide) hlt r
    obtain ⟨c, s, hc⟩ := List.exists_cons_of_ne_nil (padded_ne_nil 4 year.toNat)
    have hdigit : c.isDigit = true := isDigit_of_mem_padded (hc ▸ List.mem_cons_self)
    rw [yearFrom, dropBlanks_padded]
    rw [hc, List.cons_append] at hread ⊢
    -- a year of four digits has no sign in front of it
    split
    · next heq => exact absurd hdigit (by rw [(List.cons.inj heq).1]; decide)
    · next heq => exact absurd hdigit (by rw [(List.cons.inj heq).1]; decide)
    · rw [hread, Option.map_some]
      simp [hyear.1]
  · next hyear =>
    have hread := digitsUpTo_signed year.natAbs hr
    rw [List.length_append] at hread
    rw [String.toList_append, List.append_assoc]
    split
    · next hneg =>
      have habs : -|year| = year := by rw [abs_of_neg hneg, neg_neg]
      have hblank : Text.isBlank '-' = false := by decide
      simp [yearFrom, Text.dropBlanks_eq_self hblank, hread, habs]
    · next hneg =>
      have hpos : 0 ≤ year := Int.not_lt.1 hneg
      have hblank : Text.isBlank '+' = false := by decide
      simp [yearFrom, Text.dropBlanks_eq_self hblank, hread, hpos]

theorem isValid_bounds {d : Date} (h : d.isValid = true) : d.month < 100 ∧ d.day < 100 := by
  simp only [Date.isValid, Bool.and_eq_true, decide_eq_true_eq] at h
  obtain ⟨⟨⟨-, hmonth⟩, -⟩, hday⟩ := h
  have hdays : Date.daysIn d.year d.month ≤ 31 := by
    rw [Date.daysIn]
    split
    · split <;> decide
    · split <;> decide
  omega

theorem dateFrom_text {d : Date} (h : d.isValid = true) (r : List Char) :
    dateFrom (d.text.toList ++ r) = some (d, r) := by
  obtain ⟨hmonth, hday⟩ := isValid_bounds h
  have htext : d.text.toList ++ r = (yearText d.year).toList ++
      '-' :: ((padded 2 d.month).toList ++ '-' :: ((padded 2 d.day).toList ++ r)) := by
    simp [Date.text]
  have hyear := yearFrom_yearText (r := '-' :: ((padded 2 d.month).toList ++
    '-' :: ((padded 2 d.day).toList ++ r))) d.year (by rintro c ⟨⟩; rfl)
  have hmark : Text.isBlank '-' = false := by decide
  rw [htext, dateFrom, hyear]
  simp [skipMark_cons hmark, numberFrom_padded hmonth, numberFrom_padded hday]

theorem nanoseconds_fraction {w : Nat} (hw : 0 < w) (hmost : w ≤ 9) (h : n < 10 ^ w)
    (hr : ∀ c ∈ r.head?, c.isDigit = false) :
    nanoseconds ('.' :: ((padded w n).toList ++ r)) = some (n * 10 ^ (9 - w), r) := by
  have hlen := length_padded_eq hw h
  have htaken : ((padded w n).toList ++ r).takeWhile Char.isDigit = (padded w n).toList := by
    rw [List.takeWhile_append_of_pos fun _ => isDigit_of_mem_padded]
    cases r with
    | nil => rw [List.takeWhile_nil, List.append_nil]
    | cons c r => rw [List.takeWhile_cons_of_neg (by simp [hr c rfl]), List.append_nil]
  have hnine : (padded w n).toList.take 9 = (padded w n).toList :=
    List.take_of_length_le (by omega)
  have hdrop : ((padded w n).toList ++ r).drop w = r := List.drop_left' hlen
  simp [nanoseconds, htaken, hnine, digits?_padded, hlen, hdrop]

theorem nanoseconds_text (h : n < 1000000000) :
    nanoseconds ((fraction n).toList ++ ['Z']) = some (n, ['Z']) := by
  have hz : ∀ c ∈ ['Z'].head?, c.isDigit = false := by
    rintro c ⟨⟩
    rfl
  rw [fraction]
  split
  · next hzero =>
    subst hzero
    rfl
  split
  · next hthree =>
    have hread := nanoseconds_fraction (w := 3) (by decide) (by decide) (n := n / 1000000) (by omega) hz
    have hvalue : n / 1000000 * 10 ^ (9 - 3) = n := by omega
    rw [hvalue] at hread
    simpa using hread
  split
  · next hsix =>
    have hread := nanoseconds_fraction (w := 6) (by decide) (by decide) (n := n / 1000) (by omega) hz
    have hvalue : n / 1000 * 10 ^ (9 - 6) = n := by omega
    rw [hvalue] at hread
    simpa using hread
  · have hread := nanoseconds_fraction (w := 9) (by decide) (by decide) (n := n) (by omega) hz
    simpa using hread

theorem toList_clock (m : Moment) : m.clock.toList = (padded 2 (m.minute / 60)).toList ++
    ':' :: ((padded 2 (m.minute % 60)).toList ++ ':' :: (padded 2 m.second).toList) := by
  simp [clock]

theorem utc_zero {m : Moment} (h : m.minute < minutesOfDay) : utc m 0 = m := by
  have hlow : ¬ (m.minute : Int) < 0 := by omega
  have hhigh : (m.minute : Int) < minutesOfDay := by omega
  simp only [utc, Int.sub_zero, if_neg hlow, if_pos hhigh, Int.toNat_natCast]

/-- A moment that is written is read back. -/
theorem read?_text {m : Moment} (h : m.Valid) : read? m.text = some m := by
  have hminute : m.minute < 1440 := h.minute
  have hhour : m.minute / 60 < 24 := by omega
  have hpart : m.minute % 60 < 60 := Nat.mod_lt _ (by decide)
  have hsecond := h.second
  have htext : m.text.toList = m.date.text.toList ++ 'T' :: ((padded 2 (m.minute / 60)).toList ++
      ':' :: ((padded 2 (m.minute % 60)).toList ++ ':' :: ((padded 2 m.second).toList ++
        ((fraction m.nanosecond).toList ++ ['Z'])))) := by
    simp [text, toList_clock]
  have hcolon : Text.isBlank ':' = false := by decide
  have hoffset : offset (Text.dropBlanks ['Z']) = some (0, []) := by rfl
  have hblank : Text.allBlank [] = true := by rfl
  have hjoined : 60 * (m.minute / 60) + m.minute % 60 = m.minute := Nat.div_add_mod m.minute 60
  rw [read?, htext, dateFrom_text h.date]
  simp only [Option.bind_eq_bind, Option.bind_some, separator, skipMark_cons hcolon,
    numberFrom_padded (n := m.minute / 60) (by omega), numberFrom_padded (n := m.minute % 60) (by omega),
    numberFrom_padded (n := m.second) (by omega), nanoseconds_text h.nanosecond, hoffset, hjoined,
    utc_zero hminute, h.date, hhour, hpart, hsecond, hblank, and_self, if_true]

end Moment

namespace RunId

variable {l : List Char}

theorem digits_eq (r : RunId) : r.digits =
    List.replicate (digitCount - (Nat.toDigits 16 r.toNat).length) '0' ++ Nat.toDigits 16 r.toNat := by
  simp [digits, List.leftpad]

theorem length_digits (r : RunId) : r.digits.length = digitCount := by
  have hle : (Nat.toDigits 16 r.toNat).length ≤ digitCount :=
    (Nat.length_toDigits_le_iff (by decide) (by decide)).2 r.isLt
  rw [digits_eq, List.length_append, List.length_replicate]
  omega

theorem hexFrom_replicate_zero (k : Nat) : Text.hexFrom 0 (List.replicate k 0) = 0 := by
  induction k with
  | zero => rfl
  | succ k ih => rw [List.replicate_succ, Text.hexFrom, ih]

theorem exists_mapM_digits (r : RunId) : ∃ ds, r.digits.mapM Text.hexValue? = some ds ∧
    Text.hexFrom 0 ds = r.toNat := by
  obtain ⟨ds, hds, hvalue⟩ := Address.mapM_hexValue?_toDigits r.toNat
  have hzero : Text.hexValue? '0' = some 0 := rfl
  refine ⟨List.replicate (digitCount - (Nat.toDigits 16 r.toNat).length) 0 ++ ds, ?_, ?_⟩
  · rw [digits_eq, List.mapM_append, mapM_replicate hzero, hds]
    rfl
  · rw [Address.hexFrom_append, hexFrom_replicate_zero, hvalue]

theorem ofDigits?_digits (r : RunId) : ofDigits? r.digits = some r := by
  obtain ⟨ds, hds, hvalue⟩ := exists_mapM_digits r
  have hempty : ¬ r.digits.isEmpty = true := by
    have := length_digits r
    rw [List.isEmpty_iff]
    rintro hnil
    rw [hnil] at this
    cases this
  rw [ofDigits?, if_pos (length_digits r), Text.hex?, if_neg hempty, hds, Option.map_some,
    Option.map_some, hvalue, BitVec.ofNat_toNat, BitVec.setWidth_eq]

theorem isHex_of_mem_digits {r : RunId} {c : Char} (h : c ∈ r.digits) : Text.isHex c = true := by
  obtain ⟨ds, hds, -⟩ := exists_mapM_digits r
  exact Text.isSome_of_mapM hds c h

theorem flatten_cut {ns : List Nat} (h : l.length = ns.sum) : (cut ns l).flatten = l := by
  induction ns generalizing l with
  | nil =>
    rw [List.length_eq_zero_iff.1 h]
    rfl
  | cons n ns ih =>
    have hrest : (l.drop n).length = ns.sum := by
      rw [List.length_drop, h, List.sum_cons, Nat.add_sub_cancel_left]
    rw [cut, List.flatten_cons, ih hrest, List.take_append_drop]

theorem map_length_cut {ns : List Nat} (h : l.length = ns.sum) : (cut ns l).map List.length = ns := by
  induction ns generalizing l with
  | nil => rfl
  | cons n ns ih =>
    have hrest : (l.drop n).length = ns.sum := by
      rw [List.length_drop, h, List.sum_cons, Nat.add_sub_cancel_left]
    have htake : (l.take n).length = n := by
      rw [List.length_take, h, List.sum_cons]
      omega
    rw [cut, List.map_cons, ih hrest, htake]

theorem sum_groupLengths (r : RunId) : r.digits.length = groupLengths.sum := length_digits r

/-- The groups that are written are found again between the hyphens. -/
theorem splitOn_groups (r : RunId) :
    (['-'].intercalate (cut groupLengths r.digits)).splitOn '-' = cut groupLengths r.digits := by
  refine List.splitOn_intercalate '-' (fun g hg hmem => ?_) (by simp [groupLengths, cut])
  have hdigit : '-' ∈ r.digits := by
    rw [← flatten_cut (sum_groupLengths r)]
    exact List.mem_flatten_of_mem hg hmem
  exact absurd (isHex_of_mem_digits hdigit) (by decide)

theorem toList_text (r : RunId) : ∃ g s, r.text.toList = g ++ '-' :: s ∧ g = r.digits.take 8 ∧
    s.length = 27 := by
  have hlen := length_digits r
  simp only [digitCount] at hlen
  refine ⟨_, ['-'].intercalate (cut [4, 4, 4, 12] (r.digits.drop 8)), ?_, rfl, ?_⟩
  · simp [text, groupLengths, cut, List.intercalate]
  · simp [cut, List.intercalate, hlen]

/-- An identifier that is written is read back. -/
theorem read?_text (r : RunId) : read? r.text = some r := by
  have hlen := length_digits r
  simp only [digitCount] at hlen
  obtain ⟨g, s, htext, rfl, hs⟩ := toList_text r
  have hlength : ¬ r.text.toList.length = digitCount := by
    simp [htext, hs, hlen, digitCount]
  obtain ⟨c, t, hc⟩ : ∃ c t, r.digits.take 8 = c :: t := by
    refine List.exists_cons_of_ne_nil fun hnil => ?_
    have := congrArg List.length hnil
    simp [hlen] at this
  have hhex : Text.isHex c = true :=
    isHex_of_mem_digits (List.mem_of_mem_take (hc ▸ List.mem_cons_self))
  have hbrace : c ≠ '\x7b' ∧ c ≠ 'u' := by
    constructor <;> (rintro rfl; exact absurd hhex (by decide))
  have hbare : unwrapped r.text.toList = r.text.toList := by
    rw [htext, hc]
    simp [unwrapped, nameHead, hbrace.1, hbrace.2.symm]
  have hgroups : r.text.toList.splitOn '-' = cut groupLengths r.digits := by
    rw [text, String.toList_ofList, splitOn_groups]
  simp only [read?, if_neg hlength, hbare, hyphenated?, hgroups,
    map_length_cut (sum_groupLengths r), flatten_cut (sum_groupLengths r), if_true, ofDigits?_digits]

end RunId

end Audit
end TwinWall
