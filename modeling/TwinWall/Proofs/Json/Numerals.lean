import TwinWall.Json.Record
import TwinWall.Proofs.Json.Compact

/-! The numbers that stand in a text, told by its characters alone. Words, strings and marks that are read leave
the numbers behind them as they are, and a number that is whole and of 64 bits is read to its end. -/
namespace TwinWall
namespace Json

open Decimal Policy

/-- Where a character stands: outside of strings and numbers, in a string, behind a backslash in a string, or
behind the part of a number. -/
inductive Place where
  | outside
  | quoted
  | escaped
  | number (before : List Char)
deriving DecidableEq

def isNumeral (c : Char) : Bool := c.isDigit || c = '-' || c = '+' || c = '.' || isExponentMark c

/-- The place behind a character that stands outside. A number begins with a digit or a minus sign. -/
def Place.behind (c : Char) : Place :=
  if c = '"' then .quoted else if c = '-' || c.isDigit then .number [c] else .outside

/-- The numbers of a text from a place on. A number goes as far as its letters do. -/
def numerals : Place → List Char → List (List Char)
  | .number t, [] => [t]
  | _, [] => []
  | .outside, c :: r => numerals (.behind c) r
  | .quoted, c :: r => numerals (if c = '"' then .outside else if c = '\\' then .escaped else .quoted) r
  | .escaped, _ :: r => numerals .quoted r
  | .number t, c :: r =>
    if isNumeral c then numerals (.number (t ++ [c])) r else t :: numerals (.behind c) r

/-- Every number of a text is whole and fits 64 bits, with a sign or without. -/
def Integral (s : List Char) : Prop := ∀ t ∈ numerals .outside s, ∃ n ∈ signed? t, Fits n

instance (n : Int) : Decidable (Fits n) := inferInstanceAs (Decidable (_ ∧ _))

instance (s : List Char) : Decidable (Integral s) :=
  List.decidableBAll (fun t => ∃ n ∈ signed? t, Fits n) (numerals .outside s)

theorem integral_of_eq {s r : List Char} (hs : Integral s) (h : numerals .outside r = numerals .outside s) :
    Integral r := by
  rw [Integral, h]
  exact hs

section Outside

variable {s r : List Char} {c : Char}

theorem numerals_free (h : Place.behind c = .outside) (r : List Char) :
    numerals .outside (c :: r) = numerals .outside r := by
  rw [numerals, h]

theorem behind_of_isGap (h : isGap c = true) : Place.behind c = .outside := by
  simp only [isGap, Bool.or_eq_true, decide_eq_true_eq] at h
  rcases h with ((rfl | rfl) | rfl) | rfl <;> rfl

theorem numerals_skipGaps (s : List Char) : numerals .outside (skipGaps s) = numerals .outside s := by
  induction s with
  | nil => rfl
  | cons c s ih =>
    cases hc : isGap c with
    | true =>
      have hskip : skipGaps (c :: s) = skipGaps s := List.dropWhile_cons_of_pos hc
      rw [hskip, ih, numerals_free (behind_of_isGap hc)]
    | false => rw [skipGaps_cons hc]

theorem numerals_of_skipGaps (h : skipGaps s = c :: r) : numerals .outside (c :: r) = numerals .outside s := by
  rw [← h, numerals_skipGaps]

/-- A character that begins neither a string nor a number is left out, with the gaps in front of it. -/
theorem numerals_of_free (h : skipGaps s = c :: r) (hc : Place.behind c = .outside) :
    numerals .outside r = numerals .outside s := by
  rw [← numerals_of_skipGaps h, numerals_free hc]

theorem numerals_word {w : List Char} (hw : w.all (Place.behind · = .outside) = true) (h : word w s = .ok r) :
    numerals .outside r = numerals .outside s := by
  induction w generalizing s with
  | nil =>
    cases h
    rfl
  | cons d w ih =>
    rw [List.all_cons, Bool.and_eq_true, decide_eq_true_eq] at hw
    obtain ⟨hd, hw⟩ := hw
    cases s with
    | nil => cases h
    | cons c s =>
      rw [word] at h
      split at h
      · next heq => rw [ih hw h, heq, numerals_free hd]
      · cases h

/-- Behind a word that begins with a given letter. -/
theorem Integral.word {w : List Char} (hs : Integral (c :: s)) (hc : Place.behind c = .outside)
    (hw : w.all (Place.behind · = .outside) = true) (h : word w s = .ok r) : Integral r :=
  integral_of_eq hs ((numerals_word hw h).trans (numerals_free hc s).symm)

theorem numerals_nextItem {first more : Bool} (h : nextItem first s = .ok (more, r)) :
    numerals .outside r = numerals .outside s := by
  rw [nextItem] at h
  split at h
  · cases h
  · next c t heq =>
    split at h
    · cases h
      exact numerals_of_skipGaps heq
    split at h
    · cases h
      exact numerals_of_skipGaps heq
    split at h
    · next hc =>
      have hrest := numerals_of_free heq (hc ▸ rfl)
      split at h
      · cases h
      · next d t' heq' =>
        split at h
        · cases h
        · cases h
          rw [numerals_of_skipGaps heq', hrest]
    · cases h

theorem numerals_closeList (h : closeList s = .ok r) : numerals .outside r = numerals .outside s := by
  rw [closeList] at h
  split at h
  · cases h
  · next c t heq =>
    split at h
    · next hc =>
      cases h
      exact numerals_of_free heq (hc ▸ rfl)
    split at h
    · split at h <;> cases h
    · cases h

theorem numerals_colon (h : colon s = .ok r) : numerals .outside r = numerals .outside s := by
  rw [colon] at h
  split at h
  · cases h
  · next c t heq =>
    split at h
    · next hc =>
      cases h
      exact numerals_of_free heq (hc ▸ rfl)
    · cases h

theorem numerals_closeObject (h : closeObject s = .ok r) : numerals .outside r = numerals .outside s := by
  rw [closeObject] at h
  split at h
  · cases h
  · next c t heq =>
    split at h
    · next hc =>
      cases h
      exact numerals_of_free heq (hc ▸ rfl)
    · cases h

end Outside

section Strings

variable {s r : List Char} {c : Char}

theorem numerals_quoted (hq : c ≠ '"') (hb : c ≠ '\\') (r : List Char) :
    numerals .quoted (c :: r) = numerals .quoted r := by
  rw [numerals, if_neg hq, if_neg hb]

/-- A hexadecimal digit neither ends a string nor escapes anything. -/
theorem numerals_hex {h : List Char} {ds : List Nat} (hread : h.mapM Text.hexValue? = some ds) (r : List Char) :
    numerals .quoted (h ++ r) = numerals .quoted r := by
  induction h generalizing ds with
  | nil => rfl
  | cons c h ih =>
    rw [List.mapM_cons] at hread
    obtain ⟨d, hd, hread⟩ := Option.bind_eq_some_iff.1 hread
    obtain ⟨es, hes, -⟩ := Option.bind_eq_some_iff.1 hread
    have hquote : c ≠ '"' := by
      rintro rfl
      cases hd
    have hback : c ≠ '\\' := by
      rintro rfl
      cases hd
    rw [List.cons_append, numerals_quoted hquote hback, ih hes]

theorem numerals_hexUnit {n : Nat} (h : hexUnit s = .ok (n, r)) :
    numerals .quoted r = numerals .quoted s := by
  rw [hexUnit] at h
  split at h
  · cases h
  split at h
  · next hread =>
    cases h
    have hsplit := numerals_hex hread (s.drop 4)
    rwa [List.take_append_drop, eq_comm] at hsplit
  · cases h

theorem eq_cons_of_pairMark {d : Char} (h : pairMark d s = .ok r) : s = d :: r := by
  cases s with
  | nil => cases h
  | cons c s =>
    rw [pairMark] at h
    split at h
    · next heq =>
      cases h
      rw [heq]
    · cases h

theorem numerals_unicodeEscape (h : unicodeEscape s = .ok (c, r)) :
    numerals .quoted r = numerals .quoted s := by
  obtain ⟨⟨n, t⟩, hunit, h⟩ := bind_eq_ok.1 h
  have hfirst := numerals_hexUnit hunit
  dsimp only at h
  split at h
  · cases h
  split at h
  · obtain ⟨t', hmark, h⟩ := bind_eq_ok.1 h
    obtain ⟨t'', hletter, h⟩ := bind_eq_ok.1 h
    obtain ⟨⟨m, u⟩, hunit', h⟩ := bind_eq_ok.1 h
    have hsecond := numerals_hexUnit hunit'
    rw [eq_cons_of_pairMark hmark, eq_cons_of_pairMark hletter] at hfirst
    dsimp only at h
    split at h
    · obtain ⟨-, rfl⟩ := Prod.mk.inj (Except.ok.inj h)
      rw [hsecond, ← hfirst]
      rfl
    · cases h
  · cases h
    exact hfirst

theorem numerals_escapeBody (h : escapeBody s = .ok (c, r)) : numerals .quoted r = numerals .escaped s := by
  cases s with
  | nil => cases h
  | cons d s =>
    rw [escapeBody] at h
    split at h
    · cases h
      rfl
    split at h
    · exact numerals_unicodeEscape h
    · cases h

theorem numerals_stringBody {n : Nat} {t : List Char} (h : stringBody n s = .ok (t, r)) :
    numerals .outside r = numerals .quoted s := by
  induction n generalizing s t with
  | zero => cases h
  | succ n ih =>
    cases s with
    | nil => cases h
    | cons c s =>
      rw [stringBody] at h
      split at h
      · next hc =>
        cases h
        rw [hc]
        rfl
      split at h
      · next hc =>
        obtain ⟨⟨d, u⟩, hescape, h⟩ := bind_eq_ok.1 h
        obtain ⟨⟨t', u'⟩, hrest, h⟩ := bind_eq_ok.1 h
        cases h
        rw [ih hrest, numerals_escapeBody hescape, hc]
        rfl
      split at h
      · cases h
      · next hquote hback _ =>
        obtain ⟨⟨t', u'⟩, hrest, h⟩ := bind_eq_ok.1 h
        cases h
        rw [ih hrest, numerals_quoted hquote hback]

theorem numerals_stringRest {t : String} (h : stringRest s = .ok (t, r)) :
    numerals .outside r = numerals .outside ('"' :: s) := by
  obtain ⟨⟨u, u'⟩, hbody, h⟩ := bind_eq_ok.1 h
  cases h
  exact numerals_stringBody hbody

/-- A string that is passed over ends where it would if it was read. -/
theorem numerals_string {n : Nat} (h : Skip.string n s = .ok r) :
    numerals .outside r = numerals .quoted s := by
  induction n generalizing s with
  | zero => cases h
  | succ n ih =>
    cases s with
    | nil => cases h
    | cons c s =>
      rw [Skip.string.eq_def] at h
      dsimp only at h
      split at h
      · next hc =>
        cases h
        rw [hc]
        rfl
      split at h
      · next hc =>
        rw [hc]
        cases s with
        | nil => cases h
        | cons d s =>
          dsimp only at h
          split at h
          · rw [ih h]
            rfl
          split at h
          · obtain ⟨⟨m, u⟩, hunit, h⟩ := bind_eq_ok.1 h
            rw [ih h, numerals_hexUnit hunit]
            rfl
          · cases h
      split at h
      · cases h
      · next hquote hback _ => rw [ih h, numerals_quoted hquote hback]

theorem numerals_nextKey {first : Bool} {k : Option String} (h : nextKey first s = .ok (k, r)) :
    numerals .outside r = numerals .outside s := by
  have hkey : ∀ t, nextKey.key t = .ok (k, r) → numerals .outside r = numerals .outside t := by
    intro t h
    cases t with
    | nil => cases h
    | cons c t =>
      rw [nextKey.key] at h
      split at h
      · next hc =>
        obtain ⟨⟨u, u'⟩, hrest, h⟩ := map_eq_ok.1 h
        cases h
        rw [hc]
        exact numerals_stringRest hrest
      · cases h
  rw [nextKey] at h
  split at h
  · cases h
  · next c t heq =>
    split at h
    · cases h
      exact numerals_of_skipGaps heq
    split at h
    · rw [hkey _ h, numerals_of_skipGaps heq]
    split at h
    · next hc =>
      have hrest := numerals_of_free heq (hc ▸ rfl)
      split at h
      · cases h
      · next d t' heq' =>
        split at h
        · cases h
        · rw [hkey _ h, numerals_of_skipGaps heq', hrest]
    · cases h

end Strings

section Numbers

variable {s r r' : List Char} {c : Char} {n : Nat} {negative : Bool} {ds : List Nat} {x : Number}

/-- The digits of a number stand in front of what no number goes on with. -/
def Front (s : List Char) (n : Nat) (r : List Char) : Prop :=
  (∃ u, digits? u = some n ∧ s = u ++ r) ∧ ∀ c ∈ r.head?, isNumeral c = false

theorem numerals_number (t s : List Char) : numerals (.number t) s =
    (t ++ s.takeWhile isNumeral) :: numerals .outside (s.dropWhile isNumeral) := by
  induction s generalizing t with
  | nil => simp [numerals]
  | cons c s ih =>
    cases hc : isNumeral c with
    | true => simp [numerals, hc, ih]
    | false => simp [numerals, hc]

example : numerals .outside ['[', '"', '1', '"', ',', '-', '3', ',', '4', 'e', '5', ']'] =
    [['-', '3'], ['4', 'e', '5']] := by decide

theorem isNumeral_head_dropWhile (s : List Char) :
    ∀ c ∈ (s.dropWhile isNumeral).head?, isNumeral c = false := by
  intro c hc
  have hhead := List.head?_dropWhile_not isNumeral s
  rwa [Option.mem_def.1 hc] at hhead

theorem signed?_minus (s : List Char) :
    signed? ('-' :: s) = (digits? s).map fun n : Nat => -(n : Int) := by
  rw [signed?]
  cases digits? s <;> rfl

theorem front_of_minus (h : Integral ('-' :: s)) :
    ∃ n r, Front s n r ∧ n ≤ Number.greatestSigned.toNat + 1 ∧ Integral r := by
  have hbehind : numerals .outside ('-' :: s) = numerals (.number ['-']) s := rfl
  rw [Integral, hbehind, numerals_number] at h
  obtain ⟨⟨i, hread, hlow, -⟩, hrest⟩ := List.forall_mem_cons.1 h
  rw [List.singleton_append, signed?_minus] at hread
  obtain ⟨n, hn, rfl⟩ := Option.map_eq_some_iff.1 hread
  refine ⟨n, _, ⟨⟨_, hn, (List.takeWhile_append_dropWhile ..).symm⟩, isNumeral_head_dropWhile s⟩, ?_, hrest⟩
  simp only [Number.greatestSigned] at hlow ⊢
  omega

theorem signed?_cons_digit (hc : c.isDigit = true) (s : List Char) :
    signed? (c :: s) = (digits? (c :: s)).map fun n : Nat => (n : Int) := by
  have hminus : c ≠ '-' := ne_of_isDigit hc (by decide)
  have hplus : c ≠ '+' := ne_of_isDigit hc (by decide)
  rw [signed?.eq_def]
  split
  · next heq => exact absurd (List.cons.inj heq).1 hminus
  rw [unsigned?.eq_def]
  split
  · next heq => exact absurd (List.cons.inj heq).1 hplus
  · cases digits? (c :: s) <;> rfl

theorem front_of_digit (hc : c.isDigit = true) (h : Integral (c :: s)) :
    ∃ n r, Front (c :: s) n r ∧ n ≤ Number.greatestUnsigned ∧ Integral r := by
  have hquote : c ≠ '"' := ne_of_isDigit hc (by decide)
  have hbehind : numerals .outside (c :: s) = numerals (.number [c]) s := by
    simp [numerals, Place.behind, hquote, hc]
  rw [Integral, hbehind, numerals_number] at h
  obtain ⟨⟨i, hread, -, hhigh⟩, hrest⟩ := List.forall_mem_cons.1 h
  rw [List.singleton_append, signed?_cons_digit hc] at hread
  obtain ⟨n, hn, rfl⟩ := Option.map_eq_some_iff.1 hread
  refine ⟨n, _, ⟨⟨_, hn, ?_⟩, isNumeral_head_dropWhile s⟩, Int.ofNat_le.1 hhigh, hrest⟩
  rw [List.cons_append, List.takeWhile_append_dropWhile]

theorem digit?_of_isNumeral (h : isNumeral c = false) : digit? c = none := by
  simp only [isNumeral, Bool.or_eq_false_iff] at h
  simp [digit?, h.1.1.1.1]

/-- Digits are taken as far as the number goes. -/
theorem Front.spanDigits (h : Front s n r) : ∃ d ds, spanDigits s = (d :: ds, r) ∧ valueFrom 0 (d :: ds) = n := by
  obtain ⟨⟨u, hread, rfl⟩, hends⟩ := h
  rw [digits?] at hread
  split at hread
  · cases hread
  · next hne =>
    obtain ⟨ds, hds, hvalue⟩ := Option.map_eq_some_iff.1 hread
    have hspan := spanDigits_append hds fun c hc => digit?_of_isNumeral (hends c hc)
    cases ds with
    | nil => exact absurd (List.length_eq_zero_iff.1 (length_of_mapM hds)) (by simpa using hne)
    | cons d ds => exact ⟨d, ds, hspan, hvalue⟩

theorem eq_of_spanDigits_nil (h : Json.spanDigits s = ([], r)) : r = s := by
  cases s with
  | nil =>
    cases h
    rfl
  | cons c s =>
    rw [Json.spanDigits] at h
    split at h
    · cases h
    · cases h
      rfl

theorem spanDigits_zero (s : List Char) :
    Json.spanDigits ('0' :: s) = (0 :: (Json.spanDigits s).1, (Json.spanDigits s).2) := rfl

theorem inRange_eq_ok {f : Fault} {o : Option Number} (h : inRange f o s = .ok (x, r)) : o = some x ∧ r = s := by
  cases o with
  | none => cases h
  | some y =>
    cases h
    exact ⟨rfl, rfl⟩

theorem not_mark_of_isNumeral (h : isNumeral c = false) : c ≠ '.' ∧ ¬ isExponentMark c = true := by
  simp only [isNumeral, Bool.or_eq_false_iff, decide_eq_false_iff_not] at h
  exact ⟨h.1.2, by simp [h.2]⟩

theorem afterDigits_ends (hr : ∀ c ∈ r.head?, isNumeral c = false)
    (h : afterDigits negative ds r = .ok (x, r')) : r' = r ∧ Number.ofDigits negative ds = some x := by
  cases r with
  | nil => exact (inRange_eq_ok h).symm
  | cons c r =>
    obtain ⟨hpoint, hmark⟩ := not_mark_of_isNumeral (hr c rfl)
    rw [afterDigits, if_neg hpoint, if_neg hmark] at h
    exact (inRange_eq_ok h).symm

theorem le_valueFrom (n : Nat) (ds : List Nat) : n ≤ valueFrom n ds := by
  induction ds generalizing n with
  | nil => exact Nat.le_refl n
  | cons d ds ih =>
    have hle := ih (10 * n + d)
    rw [valueFrom]
    omega

/-- Digits that do not begin with zero have another value. -/
theorem valueFrom_ne_zero {c : Char} {d : Nat} (hd : digit? c = some d) (hc : c ≠ '0') (ds : List Nat) :
    valueFrom 0 (d :: ds) ≠ 0 := by
  have hne : d ≠ 0 := by
    rintro rfl
    exact hc (digit?_eq_some_iff.1 hd).2
  have hle := le_valueFrom (10 * 0 + d) ds
  rw [valueFrom]
  omega

/-- A zero in front stands by itself. -/
theorem Front.zero {t : List Char} (hf : Front ('0' :: s) n r) (h : Json.spanDigits s = ([], t)) :
    r = s ∧ n = 0 := by
  obtain ⟨d, ds, hspan, hvalue⟩ := hf.spanDigits
  rw [spanDigits_zero, h, eq_of_spanDigits_nil h] at hspan
  obtain ⟨hzero, rfl⟩ := Prod.mk.inj hspan
  obtain ⟨rfl, rfl⟩ := List.cons.inj hzero
  exact ⟨rfl, hvalue.symm⟩

/-- A number without point and exponent is read to its end, from its digits. -/
theorem Front.numberRest (hf : Front s n r) (h : numberRest negative s = .ok (x, r')) : r' = r ∧
    ∃ ds, Number.ofDigits negative ds = some x ∧ valueFrom 0 ds = n ∧ (n = 0 → ds = [0]) := by
  cases s with
  | nil => cases h
  | cons c s =>
    rw [Json.numberRest] at h
    split at h
    · next hc =>
      subst hc
      split at h
      · next hnil =>
        obtain ⟨rfl, rfl⟩ := hf.zero hnil
        obtain ⟨rfl, hx⟩ := afterDigits_ends hf.2 h
        exact ⟨rfl, [0], hx, rfl, fun _ => rfl⟩
      · cases h
    · next hc =>
      obtain ⟨d, ds, hspan, hvalue⟩ := hf.spanDigits
      rw [hspan] at h
      obtain ⟨rfl, hx⟩ := afterDigits_ends hf.2 h
      refine ⟨rfl, d :: ds, hx, hvalue, fun hn => ?_⟩
      rw [Json.spanDigits] at hspan
      split at hspan
      · next d' hd =>
        obtain ⟨hfirst, -⟩ := Prod.mk.inj hspan
        obtain ⟨rfl, -⟩ := List.cons.inj hfirst
        exact absurd (hvalue.trans hn) (valueFrom_ne_zero hd hc ds)
      · cases hspan

theorem skip_afterDigits_ends (hr : ∀ c ∈ r.head?, isNumeral c = false)
    (h : Skip.afterDigits r = .ok r') : r' = r := by
  cases r with
  | nil =>
    cases h
    rfl
  | cons c r =>
    obtain ⟨hpoint, hmark⟩ := not_mark_of_isNumeral (hr c rfl)
    rw [Skip.afterDigits, if_neg hpoint, if_neg hmark] at h
    cases h
    rfl

theorem Front.skip (hf : Front s n r) (h : Skip.number s = .ok r') : r' = r := by
  cases s with
  | nil => cases h
  | cons c s =>
    rw [Skip.number] at h
    split at h
    · next hc =>
      subst hc
      split at h
      · next hnil =>
        obtain ⟨rfl, -⟩ := hf.zero hnil
        exact skip_afterDigits_ends hf.2 h
      · cases h
    · obtain ⟨d, ds, hspan, -⟩ := hf.spanDigits
      rw [hspan] at h
      exact skip_afterDigits_ends hf.2 h

/-- Zero behind a minus sign. -/
def minusZero : Number := .binary ⟨true, 0, Binary64.least⟩

theorem ofDigits_minusZero : Number.ofDigits true [0] = some minusZero := by decide +kernel

theorem text_minusZero : minusZero.text.toList = ['-', '0', '.', '0'] := by decide +kernel

theorem ofParts_minusZero : Number.ofParts true [0] [0] 0 = some minusZero := by decide +kernel

theorem numberRest_minusZero (hr : Stops r) :
    Json.numberRest true ('0' :: '.' :: '0' :: r) = .ok (minusZero, r) := by
  have hpoint : Json.spanDigits ('.' :: '0' :: r) = ([], '.' :: '0' :: r) := rfl
  have hspan : Json.spanDigits ('0' :: r) = ([0], r) := spanDigits_append (s := ['0']) rfl hr.digit?
  rw [Json.numberRest, if_pos rfl, hpoint]
  dsimp only
  rw [afterDigits, if_pos rfl, fractionPart, hspan]
  cases r with
  | nil => simp only [ofParts_minusZero, inRange]
  | cons c r =>
    obtain ⟨-, hmark⟩ := not_mark_of_isStop (hr c rfl)
    simp only [if_neg hmark, ofParts_minusZero, inRange]

theorem reread_minusZero : Reread minusZero := by
  refine ⟨⟨'-', ['0', '.', '0'], text_minusZero, rfl⟩, fun d r hr => ?_⟩
  rw [text_minusZero, List.cons_append, value.eq_def, skipGaps_cons (by decide)]
  simp [numberRest_minusZero hr, Except.map]

/-- A whole number that fits is read back, and so is zero behind a minus sign, which is a binary number. -/
theorem Front.reread_minus (hf : Front s n r) (hn : n ≤ Number.greatestSigned.toNat + 1)
    (h : Json.numberRest true s = .ok (x, r')) : r' = r ∧ Reread x := by
  obtain ⟨rfl, ds, hx, hvalue, hzero⟩ := hf.numberRest h
  refine ⟨rfl, ?_⟩
  by_cases h0 : n = 0
  · rw [hzero h0, ofDigits_minusZero] at hx
    cases hx
    exact reread_minusZero
  · rw [ofDigits_of_neg (Nat.pos_of_ne_zero h0) hn ds hvalue] at hx
    cases hx
    refine reread_whole ⟨?_, ?_⟩
    · simp only [Number.greatestSigned] at hn ⊢
      omega
    · simp only [Number.greatestUnsigned]
      omega

theorem Front.reread (hf : Front s n r) (hn : n ≤ Number.greatestUnsigned)
    (h : Json.numberRest false s = .ok (x, r')) : r' = r ∧ Reread x := by
  obtain ⟨rfl, ds, hx, hvalue, -⟩ := hf.numberRest h
  rw [ofDigits_of_le hn ds hvalue] at hx
  cases hx
  refine ⟨rfl, reread_whole ⟨?_, Int.ofNat_le.2 hn⟩⟩
  simp only [Number.greatestSigned]
  omega

end Numbers

end Json
end TwinWall
