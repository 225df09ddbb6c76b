import TwinWall.Json.Lexeme
import TwinWall.Json.Printer
import TwinWall.Proofs.Decimal.Numeral
import TwinWall.Proofs.Policy.Fields

/-! Texts of strings and of whole numbers, as they may stand in a JSON text, and their reading. A string may have
escapes of every kind; what is printed has few of them. -/
namespace TwinWall
namespace Json

/-- Nothing but gaps. -/
def Gaps (s : List Char) : Prop := ∀ c ∈ s, isGap c = true

theorem gaps_nil : Gaps [] := nofun

theorem skipGaps_append {g s : List Char} (hg : Gaps g) : skipGaps (g ++ s) = skipGaps s := by
  induction g with
  | nil => rfl
  | cons c g ih =>
    obtain ⟨hc, hg⟩ := List.forall_mem_cons.1 hg
    rw [List.cons_append, skipGaps, List.dropWhile_cons_of_pos hc]
    exact ih hg

theorem skipGaps_gaps {g : List Char} (hg : Gaps g) : skipGaps g = [] := by
  have h := skipGaps_append (s := []) hg
  rwa [List.append_nil, skipGaps_nil] at h

/-- Where a value may end: at a gap, a comma or a closing mark, or with the text. -/
def isStop (c : Char) : Bool := isGap c || c = ',' || c = ']' || c = '\x7d'

/-- What may stand behind a value. -/
def Stops (s : List Char) : Prop := ∀ c ∈ s.head?, isStop c = true

theorem stops_cons {c : Char} {s : List Char} (h : isStop c = true) : Stops (c :: s) := by
  simpa [Stops] using h

/-- A gap in front of a stop is a stop. -/
theorem Gaps.stops {g s : List Char} (hg : Gaps g) (hs : Stops s) : Stops (g ++ s) := by
  cases g with
  | nil => exact hs
  | cons c g => exact stops_cons (by simp [isStop, hg c (by simp)])

section Strings

/-- Four hexadecimal digits of either case, and the number that they write. -/
def FourHex (h : List Char) (n : Nat) : Prop :=
  ∃ a b c d, h.mapM Text.hexValue? = some [a, b, c, d] ∧ n = ((a * 16 + b) * 16 + c) * 16 + d

/-- The ways to write one character inside a string. -/
inductive Shows : List Char → Char → Prop
  | itself {c : Char} (free : c ≠ '"' ∧ c ≠ '\\') (low : 0x20 ≤ c.toNat) : Shows [c] c
  | short {c d : Char} (known : shortEscape? c = some d) : Shows ['\\', c] d
  | number {h : List Char} {n : Nat} (hex : FourHex h n) (first : isLeading n = false)
    (second : isTrailing n = false) : Shows ('\\' :: 'u' :: h) (Char.ofNat n)
  | pair {h k : List Char} {n m : Nat} (first : FourHex h n) (second : FourHex k m)
    (leading : isLeading n = true) (trailing : isTrailing m = true) :
    Shows ('\\' :: 'u' :: (h ++ '\\' :: 'u' :: k))
      (Char.ofNat ((n - 0xd800) * 1024 + (m - 0xdc00) + 0x10000))

/-- A text between quotes, and the string that it writes. -/
inductive Spells : List Char → List Char → Prop
  | nil : Spells [] []
  | cons {u t s : List Char} {c : Char} (head : Shows u c) (tail : Spells t s) : Spells (u ++ t) (c :: s)

theorem length_of_mapM {α β : Type} {f : α → Option β} {l : List α} {m : List β}
    (h : l.mapM f = some m) : l.length = m.length := by
  induction l generalizing m with
  | nil =>
    cases h
    rfl
  | cons x l ih =>
    rw [List.mapM_cons] at h
    obtain ⟨y, -, h⟩ := Option.bind_eq_some_iff.1 h
    obtain ⟨ys, hys, h⟩ := Option.bind_eq_some_iff.1 h
    cases h
    rw [List.length_cons, List.length_cons, ih hys]

theorem FourHex.length_eq {h : List Char} {n : Nat} (hex : FourHex h n) : h.length = 4 := by
  obtain ⟨a, b, c, d, hread, -⟩ := hex
  exact length_of_mapM hread

theorem hexUnit_append {h : List Char} {n : Nat} (hex : FourHex h n) (r : List Char) :
    hexUnit (h ++ r) = .ok (n, r) := by
  have hlen := hex.length_eq
  obtain ⟨a, b, c, d, hread, rfl⟩ := hex
  have htake : (h ++ r).take 4 = h := List.take_left' hlen
  have hdrop : (h ++ r).drop 4 = r := List.drop_left' hlen
  have hoctets : ¬ Text.octets h < 4 := by
    have := Policy.length_le_octets h
    omega
  rw [hexUnit, htake, if_neg hoctets, hread, hdrop]

theorem unicodeEscape_number {h : List Char} {n : Nat} (hex : FourHex h n)
    (first : isLeading n = false) (second : isTrailing n = false) (r : List Char) :
    unicodeEscape (h ++ r) = .ok (Char.ofNat n, r) := by
  simp [unicodeEscape, hexUnit_append hex, first, second, bind, Except.bind]

theorem isTrailing_of_isLeading {n : Nat} (h : isLeading n = true) : isTrailing n = false := by
  simp only [isLeading, isTrailing, Bool.and_eq_true, decide_eq_true_eq, Bool.and_eq_false_iff,
    decide_eq_false_iff_not] at *
  omega

theorem unicodeEscape_pair {h k : List Char} {n m : Nat} (first : FourHex h n) (second : FourHex k m)
    (leading : isLeading n = true) (trailing : isTrailing m = true) (r : List Char) :
    unicodeEscape (h ++ '\\' :: 'u' :: (k ++ r)) =
      .ok (Char.ofNat ((n - 0xd800) * 1024 + (m - 0xdc00) + 0x10000), r) := by
  simp [unicodeEscape, hexUnit_append first, hexUnit_append second, leading, trailing, pairMark,
    isTrailing_of_isLeading leading, bind, Except.bind]

theorem escapeBody_short {c d : Char} (known : shortEscape? c = some d) (r : List Char) :
    escapeBody (c :: r) = .ok (d, r) := by
  rw [escapeBody, known]

theorem escapeBody_unicode (s : List Char) : escapeBody ('u' :: s) = unicodeEscape s := rfl

/-- A character that is written in any way is read as one. -/
theorem stringBody_shows {u : List Char} {c : Char} (h : Shows u c) (n : Nat) (r : List Char) :
    stringBody (n + 1) (u ++ r) = (stringBody n r).map fun p => (c :: p.1, p.2) := by
  have hmap : ((stringBody n r).bind fun p => Except.ok (c :: p.1, p.2)) =
      (stringBody n r).map fun p => (c :: p.1, p.2) := by
    cases stringBody n r <;> rfl
  rw [← hmap]
  cases h with
  | itself free low =>
    rw [List.cons_append, List.nil_append, stringBody, if_neg free.1, if_neg free.2,
      if_neg (Nat.not_lt.2 low)]
    rfl
  | short known =>
    have hbody := escapeBody_short known r
    rw [List.cons_append, List.cons_append, List.nil_append, stringBody, if_neg (by decide),
      if_pos rfl, hbody]
    rfl
  | number hex first second =>
    rw [List.cons_append, List.cons_append, stringBody, if_neg (by decide), if_pos rfl,
      escapeBody_unicode, unicodeEscape_number hex first second]
    rfl
  | pair first second leading trailing =>
    rw [List.cons_append, List.cons_append, List.append_assoc, List.cons_append, List.cons_append,
      stringBody, if_neg (by decide), if_pos rfl, escapeBody_unicode,
      unicodeEscape_pair first second leading trailing]
    rfl

theorem Shows.length_pos {u : List Char} {c : Char} (h : Shows u c) : 0 < u.length := by
  cases h <;> exact Nat.succ_pos _

theorem Spells.length_le {t s : List Char} (h : Spells t s) : s.length ≤ t.length := by
  induction h with
  | nil => exact Nat.le_refl 0
  | cons head tail ih =>
    have hpos := head.length_pos
    rw [List.length_append, List.length_cons]
    omega

theorem stringBody_spells {t s : List Char} (h : Spells t s) {n : Nat} (hn : s.length < n)
    (r : List Char) : stringBody n (t ++ '"' :: r) = .ok (s, r) := by
  induction h generalizing n with
  | nil =>
    obtain ⟨n, rfl⟩ := Nat.exists_eq_succ_of_ne_zero (Nat.ne_of_gt hn)
    rfl
  | cons head tail ih =>
    obtain ⟨n, rfl⟩ := Nat.exists_eq_succ_of_ne_zero (Nat.ne_zero_of_lt hn)
    rw [List.append_assoc, stringBody_shows head, ih (Nat.lt_of_succ_lt_succ hn)]
    rfl

theorem stringRest_spells {t s : List Char} (h : Spells t s) (r : List Char) :
    stringRest (t ++ '"' :: r) = .ok (String.ofList s, r) := by
  have hlen : s.length < (t ++ '"' :: r).length + 1 := by
    have := h.length_le
    rw [List.length_append]
    omega
  rw [stringRest, stringBody_spells h hlen]
  rfl

theorem hexValue?_hexDigit {n : Nat} (h : n < 16) : Text.hexValue? (hexDigit n) = some n :=
  Text.hexValue?_digitChar h

/-- Every escape that is printed is read as its character. -/
theorem shows_escape (c : Char) : Shows (escape c) c := by
  rw [escape]
  split
  · next h => exact .short (by rw [h]; rfl)
  split
  · next h => exact .short (by rw [h]; rfl)
  split
  · next hq hb hlow => exact .itself ⟨hq, hb⟩ hlow
  split
  · next h => exact .short (by rw [h]; rfl)
  split
  · next h => exact .short (by rw [h]; rfl)
  split
  · next h => exact .short (by rw [h]; rfl)
  split
  · next h => exact .short (by rw [h]; rfl)
  split
  · next h => exact .short (by rw [h]; rfl)
  · next hlow _ _ _ _ _ =>
    have hlt : c.toNat < 32 := Nat.lt_of_not_le hlow
    have hex : FourHex ['0', '0', hexDigit (c.toNat / 16), hexDigit (c.toNat % 16)] c.toNat := by
      refine ⟨0, 0, c.toNat / 16, c.toNat % 16, ?_, by omega⟩
      have hzero : Text.hexValue? '0' = some 0 := rfl
      have hhigh := hexValue?_hexDigit (n := c.toNat / 16) (by omega)
      have hrest := hexValue?_hexDigit (n := c.toNat % 16) (by omega)
      simp [hzero, hhigh, hrest]
    have hshow := Shows.number hex (by simp [isLeading]; omega) (by simp [isTrailing]; omega)
    rwa [Char.ofNat_toNat] at hshow

theorem spells_escape (s : List Char) : Spells (s.flatMap escape) s := by
  induction s with
  | nil => exact .nil
  | cons c s ih => exact .cons (shows_escape c) ih

theorem spells_string (s : String) : Spells (s.toList.flatMap escape) s.toList := spells_escape s.toList

end Strings

section Numbers

open Decimal

/-- A digit is told from any other character. -/
theorem ne_of_isDigit {c d : Char} (hc : c.isDigit = true) (hd : d.isDigit = false) : c ≠ d := by
  rintro rfl
  exact absurd hc (by simp [hd])

theorem isStop_of_isDigit {c : Char} (h : c.isDigit = true) : isStop c = false :=
  Text.of_forall_ascii (P := fun c => c.isDigit = true → isStop c = false) (by decide)
    (Text.toNat_lt_of_isDigit h) h

theorem isGap_of_isStop_eq_false {c : Char} (h : isStop c = false) : isGap c = false := by
  simp only [isStop, Bool.or_eq_false_iff] at h
  exact h.1.1.1

theorem digit?_of_isStop {c : Char} (h : isStop c = true) : digit? c = none := by
  simp only [isStop, isGap, Bool.or_eq_true, decide_eq_true_eq] at h
  rcases h with ((((((rfl | rfl) | rfl) | rfl) | rfl) | rfl) | rfl) <;> rfl

/-- A number does not go on with a stop. -/
theorem not_mark_of_isStop {c : Char} (h : isStop c = true) : c ≠ '.' ∧ ¬ isExponentMark c = true := by
  constructor
  · rintro rfl
    exact absurd h (by decide)
  · intro hmark
    simp only [isExponentMark, Bool.or_eq_true, decide_eq_true_eq] at hmark
    rcases hmark with rfl | rfl <;> exact absurd h (by decide)

theorem spanDigits_append {s r : List Char} {ds : List Nat} (hs : s.mapM digit? = some ds)
    (hr : ∀ c ∈ r.head?, digit? c = none) : spanDigits (s ++ r) = (ds, r) := by
  induction s generalizing ds with
  | nil =>
    cases hs
    cases r with
    | nil => rfl
    | cons c r =>
      rw [List.nil_append, spanDigits, hr c rfl]
      rfl
  | cons c s ih =>
    rw [List.mapM_cons] at hs
    obtain ⟨d, hd, hs⟩ := Option.bind_eq_some_iff.1 hs
    obtain ⟨es, hes, hs⟩ := Option.bind_eq_some_iff.1 hs
    cases hs
    rw [List.cons_append, spanDigits, hd, ih hes]

theorem Stops.digit? {r : List Char} (h : Stops r) : ∀ c ∈ r.head?, Decimal.digit? c = none :=
  fun c hc => digit?_of_isStop (h c hc)

theorem afterDigits_stops {r : List Char} (h : Stops r) (negative : Bool) (ds : List Nat) {x : Number}
    (hx : Number.ofDigits negative ds = some x) : afterDigits negative ds r = .ok (x, r) := by
  cases r with
  | nil => rw [afterDigits, hx, inRange]
  | cons c r =>
    obtain ⟨hpoint, hmark⟩ := not_mark_of_isStop (h c rfl)
    rw [afterDigits, if_neg hpoint, if_neg hmark, hx, inRange]

/-- The first digit of a number is no zero, but for zero itself. -/
theorem exists_toDigits {n : Nat} (h : n ≠ 0) : ∃ c r, Nat.toDigits 10 n = c :: r ∧ c ≠ '0' := by
  induction n using Nat.strongRecOn with
  | _ n ih =>
    by_cases hlt : n < 10
    · refine ⟨n.digitChar, [], Nat.toDigits_of_lt_base hlt, ?_⟩
      have hall : ∀ m < 10, m ≠ 0 → m.digitChar ≠ '0' := by decide
      exact hall n hlt h
    · obtain ⟨c, r, hr, hc⟩ := ih (n / 10) (by omega) (by omega)
      refine ⟨c, r ++ [(n % 10).digitChar], ?_, hc⟩
      rw [Nat.toDigits_of_base_le (by omega) (by omega), hr]
      rfl

/-- Digits that are no more than are needed are read as their number, whatever it comes to. -/
theorem numberRest_repr {r : List Char} (h : Stops r) (negative : Bool) (n : Nat) {x : Number}
    (hx : ∀ ds, valueFrom 0 ds = n → Number.ofDigits negative ds = some x) :
    numberRest negative (n.repr.toList ++ r) = .ok (x, r) := by
  have htext : n.repr.toList = Nat.toDigits 10 n := by simp
  by_cases hn : n = 0
  · subst hn
    have hzero : (0 : Nat).repr.toList ++ r = '0' :: r := rfl
    have hspan : spanDigits r = ([], r) := spanDigits_append (s := []) rfl h.digit?
    rw [hzero, numberRest, if_pos rfl, hspan]
    exact afterDigits_stops h negative [0] (hx [0] rfl)
  · obtain ⟨ds, hds, hvalue⟩ := mapM_digit?_toDigits n
    obtain ⟨c, t, hc, hne⟩ := exists_toDigits hn
    have hspan := spanDigits_append hds h.digit?
    rw [htext, hc, List.cons_append, numberRest, if_neg hne, ← List.cons_append, ← hc, hspan]
    cases ds with
    | nil => exact absurd hvalue (by simpa [valueFrom, eq_comm] using hn)
    | cons d ds => exact afterDigits_stops h negative (d :: ds) (hx _ hvalue)

/-- Whole numbers that fit 64 bits, with a sign or without. -/
def Fits (n : Int) : Prop := -(Number.greatestSigned + 1) ≤ n ∧ n ≤ Number.greatestUnsigned

theorem ofDigits_of_le {n : Nat} (h : n ≤ Number.greatestUnsigned) (ds : List Nat)
    (hds : valueFrom 0 ds = n) : Number.ofDigits false ds = some (.whole n) := by
  simp [Number.ofDigits, hds, h]

theorem ofDigits_of_neg {n : Nat} (hpos : 0 < n) (h : n ≤ Number.greatestSigned.toNat + 1)
    (ds : List Nat) (hds : valueFrom 0 ds = n) : Number.ofDigits true ds = some (.whole (-n)) := by
  simp [Number.ofDigits, hds, hpos, h]

/-- How a whole number begins, and how it is read from there. -/
theorem ofInt_read {n : Int} (hn : Fits n) : ∃ c t, (ofInt n).toList = c :: t ∧
    (c = '-' ∧ (∀ r, Stops r → numberRest true (t ++ r) = .ok (.whole n, r)) ∨
      c.isDigit = true ∧ ∀ r, Stops r → numberRest false (c :: (t ++ r)) = .ok (.whole n, r)) := by
  obtain ⟨hlow, hhigh⟩ := hn
  cases n with
  | ofNat n =>
    have hne : n.repr.toList ≠ [] := by simp
    obtain ⟨c, t, hc⟩ := List.exists_cons_of_ne_nil hne
    have hmem : c ∈ Nat.toDigits 10 n := by
      have htext : n.repr.toList = Nat.toDigits 10 n := by simp
      rw [← htext, hc]
      exact List.mem_cons_self
    have hdigit : c.isDigit = true := Nat.isDigit_of_mem_toDigits (by decide) (by decide) hmem
    refine ⟨c, t, hc, .inr ⟨hdigit, fun r hr => ?_⟩⟩
    rw [← List.cons_append, ← hc]
    exact numberRest_repr hr false n (ofDigits_of_le (by simpa using hhigh))
  | negSucc n =>
    refine ⟨'-', (n + 1).repr.toList, by simp [ofInt], .inl ⟨rfl, fun r hr => ?_⟩⟩
    have hbound : n + 1 ≤ Number.greatestSigned.toNat + 1 := by
      simp only [Number.greatestSigned] at hlow ⊢
      omega
    exact numberRest_repr hr true (n + 1) (ofDigits_of_neg (Nat.succ_pos n) hbound)

end Numbers

end Json
end TwinWall
