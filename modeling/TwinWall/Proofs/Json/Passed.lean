import TwinWall.Json.Skip
import TwinWall.Proofs.Json.Container

/-! The grammar of JSON texts, and the passing over of a value that follows it. Strings and numbers of any size
may stand there, and containers may be nested to any depth. -/
namespace TwinWall
namespace Json

section Strings

/-- One character or one escape inside a string, whether there is a character that it stands for or not. -/
inductive Glyph : List Char → Prop
  | itself {c : Char} (free : c ≠ '"' ∧ c ≠ '\\') (low : 0x20 ≤ c.toNat) : Glyph [c]
  | short {c d : Char} (known : shortEscape? c = some d) : Glyph ['\\', c]
  | number {h : List Char} {n : Nat} (hex : FourHex h n) : Glyph ('\\' :: 'u' :: h)

/-- What may stand between the quotes of a string. -/
inductive Inner : List Char → Prop
  | nil : Inner []
  | cons {u t : List Char} (head : Glyph u) (tail : Inner t) : Inner (u ++ t)

theorem shortEscape?_u : shortEscape? 'u' = none := rfl

/-- A character or an escape is passed in one turn. -/
theorem string_glyph {u : List Char} (h : Glyph u) (n : Nat) (r : List Char) :
    Skip.string (n + 1) (u ++ r) = Skip.string n r := by
  cases h with
  | itself free low =>
    rw [List.cons_append, List.nil_append, Skip.string.eq_def]
    simp only [if_neg free.1, if_neg free.2, if_neg (Nat.not_lt.2 low)]
  | short known =>
    rw [List.cons_append, List.cons_append, List.nil_append, Skip.string.eq_def]
    simp [known]
  | number hex =>
    rw [List.cons_append, List.cons_append, Skip.string, if_neg (by decide), if_pos rfl]
    simp [shortEscape?_u, hexUnit_append hex, bind, Except.bind]

theorem Glyph.length_pos {u : List Char} (h : Glyph u) : 0 < u.length := by
  cases h <;> exact Nat.succ_pos _

theorem string_inner {t : List Char} (h : Inner t) {n : Nat} (hn : t.length < n) (r : List Char) :
    Skip.string n (t ++ '"' :: r) = .ok r := by
  induction h generalizing n with
  | nil =>
    obtain ⟨n, rfl⟩ := Nat.exists_eq_succ_of_ne_zero (Nat.ne_of_gt hn)
    rfl
  | @cons u t head tail ih =>
    have hpos := head.length_pos
    rw [List.length_append] at hn
    obtain ⟨n, rfl⟩ := Nat.exists_eq_succ_of_ne_zero (Nat.ne_zero_of_lt hn)
    rw [List.append_assoc, string_glyph head]
    exact ih (by omega)

theorem string_whole {t : List Char} (h : Inner t) (r : List Char) :
    Skip.string ((t ++ '"' :: r).length + 1) (t ++ '"' :: r) = .ok r := by
  refine string_inner h ?_ r
  rw [List.length_append]
  omega

end Strings

section Numbers

/-- Digits without a zero in front, or a zero by itself. -/
inductive Whole : List Char → Prop
  | zero : Whole ['0']
  | digits {c : Char} {s : List Char} (first : c.isDigit = true) (ne_zero : c ≠ '0')
    (rest : ∀ d ∈ s, d.isDigit = true) : Whole (c :: s)

def SomeDigits (s : List Char) : Prop := s ≠ [] ∧ ∀ d ∈ s, d.isDigit = true

inductive Fraction : List Char → Prop
  | none : Fraction []
  | some {s : List Char} (digits : SomeDigits s) : Fraction ('.' :: s)

inductive Exponent : List Char → Prop
  | none : Exponent []
  | some {c : Char} {g s : List Char} (mark : isExponentMark c = true) (sign : g ∈ [[], ['+'], ['-']])
    (digits : SomeDigits s) : Exponent (c :: (g ++ s))

/-- Numbers of any size, with a fraction and an exponent or without. -/
inductive NumberText : List Char → Prop
  | unsigned {w f e : List Char} (whole : Whole w) (fraction : Fraction f) (exponent : Exponent e) :
    NumberText (w ++ (f ++ e))
  | negative {w f e : List Char} (whole : Whole w) (fraction : Fraction f) (exponent : Exponent e) :
    NumberText ('-' :: (w ++ (f ++ e)))

theorem mapM_digit?_of_isDigit {s : List Char} (h : ∀ c ∈ s, c.isDigit = true) :
    s.mapM Decimal.digit? = some (s.map fun c => c.toNat - 48) := by
  induction s with
  | nil => rfl
  | cons c s ih =>
    obtain ⟨hc, hs⟩ := List.forall_mem_cons.1 h
    simp [ih hs, Decimal.digit?, hc]

/-- What may stand behind digits: anything but a digit. -/
def EndsDigits (r : List Char) : Prop := ∀ c ∈ r.head?, Decimal.digit? c = none

/-- Digits are taken as far as they go, and there is one at least. -/
theorem spanDigits_some {s r : List Char} (hs : SomeDigits s) (hr : EndsDigits r) :
    ∃ d ds, spanDigits (s ++ r) = (d :: ds, r) := by
  obtain ⟨hne, hdigits⟩ := hs
  obtain ⟨c, t, rfl⟩ := List.exists_cons_of_ne_nil hne
  exact ⟨_, _, spanDigits_append (mapM_digit?_of_isDigit hdigits) hr⟩

theorem exponentSign_append {g s : List Char} (hg : g ∈ [[], ['+'], ['-']]) (hs : SomeDigits s)
    (r : List Char) : (exponentSign (g ++ (s ++ r))).2 = s ++ r := by
  obtain ⟨hne, hdigits⟩ := hs
  obtain ⟨c, t, rfl⟩ := List.exists_cons_of_ne_nil hne
  have hc : c.isDigit = true := hdigits c List.mem_cons_self
  have hplus : c ≠ '+' := ne_of_isDigit hc (by decide)
  have hminus : c ≠ '-' := ne_of_isDigit hc (by decide)
  simp only [List.mem_cons, List.not_mem_nil, or_false] at hg
  rcases hg with rfl | rfl | rfl
  · rw [List.nil_append, List.cons_append, exponentSign]
    · exact fun _ heq => hplus (List.cons.inj heq).1
    · exact fun _ heq => hminus (List.cons.inj heq).1
  · rfl
  · rfl

theorem exponent_append {g s r : List Char} (hg : g ∈ [[], ['+'], ['-']]) (hs : SomeDigits s)
    (hr : Stops r) : Skip.exponent (g ++ (s ++ r)) = .ok r := by
  obtain ⟨d, ds, hspan⟩ := spanDigits_some hs hr.digit?
  simp only [Skip.exponent, exponentSign_append hg hs, hspan]

theorem ne_point_of_mark {c : Char} (h : isExponentMark c = true) : c ≠ '.' := by
  rintro rfl
  exact absurd h (by decide)

/-- A mark of an exponent ends digits, as a stop does. -/
theorem Exponent.endsDigits {e r : List Char} (h : Exponent e) (hr : Stops r) : EndsDigits (e ++ r) := by
  cases h with
  | none => exact hr.digit?
  | some mark sign digits =>
    rintro c ⟨⟩
    simp only [isExponentMark, Bool.or_eq_true, decide_eq_true_eq] at mark
    rcases mark with rfl | rfl <;> rfl

theorem Fraction.endsDigits {f e r : List Char} (h : Fraction f) (he : Exponent e) (hr : Stops r) :
    EndsDigits (f ++ (e ++ r)) := by
  cases h with
  | none => exact he.endsDigits hr
  | some digits =>
    rintro c ⟨⟩
    rfl

theorem afterDigits_exponent {e r : List Char} (he : Exponent e) (hr : Stops r) :
    Skip.afterDigits (e ++ r) = .ok r := by
  cases he with
  | none =>
    cases r with
    | nil => rfl
    | cons c r =>
      obtain ⟨hpoint, hmark⟩ := not_mark_of_isStop (hr c rfl)
      rw [List.nil_append, Skip.afterDigits, if_neg hpoint, if_neg hmark]
  | some mark sign digits =>
    rw [List.cons_append, List.append_assoc, Skip.afterDigits, if_neg (ne_point_of_mark mark), if_pos mark,
      exponent_append sign digits hr]

theorem fraction_exponent {s e r : List Char} (hs : SomeDigits s) (he : Exponent e) (hr : Stops r) :
    Skip.fraction (s ++ (e ++ r)) = .ok r := by
  obtain ⟨d, ds, hspan⟩ := spanDigits_some hs (he.endsDigits hr)
  rw [Skip.fraction, hspan]
  cases he with
  | none =>
    cases r with
    | nil => rfl
    | cons c r =>
      obtain ⟨-, hmark⟩ := not_mark_of_isStop (hr c rfl)
      simp only [List.nil_append, if_neg hmark]
  | some mark sign digits =>
    simp only [List.cons_append, List.append_assoc, if_pos mark, exponent_append sign digits hr]

theorem afterDigits_append {f e r : List Char} (hf : Fraction f) (he : Exponent e) (hr : Stops r) :
    Skip.afterDigits (f ++ (e ++ r)) = .ok r := by
  cases hf with
  | none => exact afterDigits_exponent he hr
  | some digits => rw [List.cons_append, Skip.afterDigits, if_pos rfl, fraction_exponent digits he hr]

theorem number_append {w f e r : List Char} (hw : Whole w) (hf : Fraction f) (he : Exponent e)
    (hr : Stops r) : Skip.number (w ++ (f ++ (e ++ r))) = .ok r := by
  have hafter := afterDigits_append hf he hr
  have hends := hf.endsDigits he hr
  cases hw with
  | zero =>
    have hspan : spanDigits (f ++ (e ++ r)) = ([], f ++ (e ++ r)) := spanDigits_append (s := []) rfl hends
    rw [List.cons_append, List.nil_append, Skip.number, if_pos rfl, hspan]
    exact hafter
  | @digits c s first ne_zero rest =>
    have hsome : SomeDigits (c :: s) := ⟨by simp, List.forall_mem_cons.2 ⟨first, rest⟩⟩
    obtain ⟨d, ds, hspan⟩ := spanDigits_some hsome hends
    rw [List.cons_append] at hspan ⊢
    rw [Skip.number, if_neg ne_zero, hspan]
    exact hafter

end Numbers

section Values

/-- What a text is: a value, the items of a list, or the members of an object. -/
inductive Part where
  | value
  | items
  | members

/-- The texts of values, of one item or more, and of one member or more. -/
inductive Grammar : Part → List Char → Prop
  | null : Grammar .value ['n', 'u', 'l', 'l']
  | yes : Grammar .value ['t', 'r', 'u', 'e']
  | no : Grammar .value ['f', 'a', 'l', 's', 'e']
  | number {t : List Char} (number : NumberText t) : Grammar .value t
  | string {t : List Char} (inner : Inner t) : Grammar .value ('"' :: (t ++ ['"']))
  | emptyList {g : List Char} (gaps : Gaps g) : Grammar .value ('[' :: (g ++ [']']))
  | list {s : List Char} (items : Grammar .items s) : Grammar .value ('[' :: (s ++ [']']))
  | emptyObject {g : List Char} (gaps : Gaps g) : Grammar .value ('\x7b' :: (g ++ ['\x7d']))
  | object {s : List Char} (members : Grammar .members s) : Grammar .value ('\x7b' :: (s ++ ['\x7d']))
  | item {g t g' : List Char} (before : Gaps g) (value : Grammar .value t) (behind : Gaps g') :
    Grammar .items (g ++ (t ++ g'))
  | items {g t g' s : List Char} (before : Gaps g) (value : Grammar .value t) (behind : Gaps g')
    (rest : Grammar .items s) : Grammar .items (g ++ (t ++ (g' ++ ',' :: s)))
  | member {g k l g' t h : List Char} (before : Gaps g) (key : Inner k) (left : Gaps l) (right : Gaps g')
    (value : Grammar .value t) (behind : Gaps h) :
    Grammar .members (g ++ '"' :: (k ++ '"' :: (l ++ ':' :: (g' ++ (t ++ h)))))
  | members {g k l g' t h s : List Char} (before : Gaps g) (key : Inner k) (left : Gaps l)
    (right : Gaps g') (value : Grammar .value t) (behind : Gaps h) (rest : Grammar .members s) :
    Grammar .members (g ++ '"' :: (k ++ '"' :: (l ++ ':' :: (g' ++ (t ++ (h ++ ',' :: s))))))

/-- A value without parts is passed in one turn. -/
def Scalar (t : List Char) : Prop :=
  ∃ c s, t = c :: s ∧ isGap c = false ∧ ∀ r, Stops r → Skip.scalar c (s ++ r) = some (.ok r)

theorem scalar_of_word {c : Char} {s : List Char} (hgap : isGap c = false)
    (h : ∀ r, Skip.scalar c r = some (word s r)) : Scalar (c :: s) := by
  have hword : ∀ (s r : List Char), word s (s ++ r) = .ok r := by
    intro s r
    induction s with
    | nil => rfl
    | cons d s ih => rw [List.cons_append, word, if_pos rfl, ih]
  exact ⟨c, s, rfl, hgap, fun r _ => by rw [h, hword]⟩

theorem Whole.head {w : List Char} (h : Whole w) : ∃ c s, w = c :: s ∧ c.isDigit = true := by
  cases h with
  | zero => exact ⟨'0', [], rfl, rfl⟩
  | digits first ne_zero rest => exact ⟨_, _, rfl, first⟩

theorem scalar_number {t : List Char} (h : NumberText t) : Scalar t := by
  cases h with
  | @unsigned w f e whole fraction exponent =>
    obtain ⟨c, s, rfl, hdigit⟩ := whole.head
    refine ⟨c, s ++ (f ++ e), rfl, isGap_of_isStop_eq_false (isStop_of_isDigit hdigit), fun r hr => ?_⟩
    have hnumber := number_append whole fraction exponent hr
    have hletters : c ≠ 'n' ∧ c ≠ 't' ∧ c ≠ 'f' ∧ c ≠ '-' := by
      refine ⟨?_, ?_, ?_, ?_⟩ <;> exact ne_of_isDigit hdigit (by decide)
    rw [List.cons_append] at hnumber
    simp [Skip.scalar, hletters, hdigit, hnumber]
  | @negative w f e whole fraction exponent =>
    refine ⟨'-', w ++ (f ++ e), rfl, by decide, fun r hr => ?_⟩
    have hnumber := number_append whole fraction exponent hr
    simp [Skip.scalar, hnumber]

theorem scalar_string {t : List Char} (h : Inner t) : Scalar ('"' :: (t ++ ['"'])) := by
  refine ⟨'"', t ++ ['"'], rfl, rfl, fun r _ => ?_⟩
  rw [List.append_assoc]
  exact congrArg some (string_whole h r)

theorem run_scalar {t : List Char} (h : Scalar t) (n : Nat) (frames : List Skip.Frame)
    {g r : List Char} (hg : Gaps g) (hr : Stops r) :
    Skip.run (n + 1) .value frames (g ++ (t ++ r)) = Skip.run n .after frames r := by
  obtain ⟨c, s, rfl, hgap, hscalar⟩ := h
  rw [Skip.run, skipGaps_append hg, List.cons_append, skipGaps_cons hgap]
  simp only [hscalar r hr]

end Values

section Turns

variable {g r s : List Char} {n : Nat} {frames : List Skip.Frame} {f : Skip.Frame}

theorem isGap_close (f : Skip.Frame) : isGap f.close = false := by
  cases f <;> rfl

theorem close_ne_comma (f : Skip.Frame) : f.close ≠ ',' := by
  cases f <;> decide

theorem skipGaps_skipGaps (s : List Char) : skipGaps (skipGaps s) = skipGaps s := by
  induction s with
  | nil => rfl
  | cons c s ih =>
    cases hc : isGap c with
    | true =>
      have hskip : skipGaps (c :: s) = skipGaps s := List.dropWhile_cons_of_pos hc
      rw [hskip, ih]
    | false => rw [skipGaps_cons hc, skipGaps_cons hc]

theorem run_value_skipGaps : Skip.run (n + 1) .value frames (skipGaps s) = Skip.run (n + 1) .value frames s := by
  rw [Skip.run, Skip.run, skipGaps_skipGaps]

theorem key_skipGaps : Skip.key (.object :: frames) (skipGaps s) = Skip.key (.object :: frames) s := by
  rw [Skip.key, Skip.key, skipGaps_skipGaps]

theorem run_opening (hg : Gaps g) : Skip.run (n + 1) .value frames (g ++ '[' :: r) =
    Skip.run n .opened (.list :: frames) r := by
  rw [Skip.run, skipGaps_append hg, skipGaps_cons (by decide)]
  rfl

theorem run_openingBrace (hg : Gaps g) : Skip.run (n + 1) .value frames (g ++ '\x7b' :: r) =
    Skip.run n .opened (.object :: frames) r := by
  rw [Skip.run, skipGaps_append hg, skipGaps_cons (by decide)]
  rfl

theorem run_opened_close (hg : Gaps g) : Skip.run (n + 1) .opened (f :: frames) (g ++ f.close :: r) =
    Skip.run n .after frames r := by
  simp only [Skip.run, skipGaps_append hg, skipGaps_cons (isGap_close f), if_true]

theorem run_opened {c : Char} (hg : Gaps g) (hgap : isGap c = false) (hc : c ≠ f.close) :
    Skip.run (n + 1) .opened (f :: frames) (g ++ c :: r) =
      Skip.key (f :: frames) (c :: r) >>= Skip.run n .value (f :: frames) := by
  simp only [Skip.run, skipGaps_append hg, skipGaps_cons hgap, if_neg hc]

theorem run_after_close (hg : Gaps g) : Skip.run (n + 1) .after (f :: frames) (g ++ f.close :: r) =
    Skip.run n .after frames r := by
  rw [Skip.run, skipGaps_append hg, skipGaps_cons (isGap_close f)]
  simp only [if_neg (close_ne_comma f), if_true]

theorem run_after_comma (hg : Gaps g) : Skip.run (n + 1) .after (f :: frames) (g ++ ',' :: r) =
    Skip.key (f :: frames) r >>= Skip.run n .value (f :: frames) := by
  rw [Skip.run, skipGaps_append hg, skipGaps_cons (by decide)]
  simp only [if_true]

theorem key_member {k l : List Char} (hg : Gaps g) (hk : Inner k) (hl : Gaps l) :
    Skip.key (.object :: frames) (g ++ '"' :: (k ++ '"' :: (l ++ ':' :: r))) = .ok r := by
  have hcolon : colon (l ++ ':' :: r) = .ok r := by
    rw [colon, skipGaps_append hl, skipGaps_cons (by decide)]
    rfl
  rw [Skip.key, skipGaps_append hg, skipGaps_cons (by decide)]
  simp only [if_true, string_whole hk, bind, Except.bind, hcolon]

end Turns

section Passing

theorem Grammar.begins {t : List Char} (h : Grammar .value t) : Begins t := by
  cases h with
  | null => exact ⟨_, _, rfl, by decide⟩
  | yes => exact ⟨_, _, rfl, by decide⟩
  | no => exact ⟨_, _, rfl, by decide⟩
  | number number =>
    cases number with
    | unsigned whole fraction exponent =>
      obtain ⟨c, s, rfl, hdigit⟩ := whole.head
      exact ⟨c, _, rfl, isStop_of_isDigit hdigit⟩
    | negative whole fraction exponent => exact ⟨_, _, rfl, by decide⟩
  | string inner => exact ⟨_, _, rfl, by decide⟩
  | emptyList gaps => exact ⟨_, _, rfl, by decide⟩
  | list items => exact ⟨_, _, rfl, by decide⟩
  | emptyObject gaps => exact ⟨_, _, rfl, by decide⟩
  | object members => exact ⟨_, _, rfl, by decide⟩

/-- Items begin with a value, behind any gaps. -/
theorem Grammar.exists_item {s : List Char} (h : Grammar .items s) :
    ∃ g c u, s = g ++ c :: u ∧ Gaps g ∧ isGap c = false ∧ c ≠ ']' := by
  have hbegins : ∀ {g t u : List Char}, Gaps g → Grammar .value t →
      ∃ g' c v, g ++ (t ++ u) = g' ++ c :: v ∧ Gaps g' ∧ isGap c = false ∧ c ≠ ']' := by
    intro g t u hg ht
    obtain ⟨c, v, rfl, hc⟩ := ht.begins
    exact ⟨g, c, v ++ u, rfl, hg, isGap_of_isStop_eq_false hc, (ne_of_not_isStop hc).1⟩
  cases h with
  | item before value behind => exact hbegins before value
  | items before value behind rest => exact hbegins before value

theorem Grammar.exists_member {s : List Char} (h : Grammar .members s) :
    ∃ g u, s = g ++ '"' :: u ∧ Gaps g := by
  cases h with
  | member before => exact ⟨_, _, rfl, before⟩
  | members before => exact ⟨_, _, rfl, before⟩

/-- A part is passed in turns, of which there are at most two for each of its characters. -/
def Passes : Part → List Char → Prop
  | .value, t => ∃ k ≤ 2 * t.length, ∀ n frames g r, Gaps g → Stops r →
      Skip.run (n + k) .value frames (g ++ (t ++ r)) = Skip.run n .after frames r
  | .items, s => ∃ k ≤ 2 * s.length, ∀ n frames r,
      Skip.run (n + k + 1) .value (.list :: frames) (s ++ ']' :: r) = Skip.run n .after frames r
  | .members, s => ∃ k ≤ 2 * s.length, ∀ n frames r,
      (Skip.key (.object :: frames) (s ++ '\x7d' :: r) >>= Skip.run (n + k) .value (.object :: frames)) =
        Skip.run n .after frames r

theorem passes_scalar {t : List Char} (h : Scalar t) : Passes .value t := by
  refine ⟨1, ?_, fun n frames g r hg hr => run_scalar h n frames hg hr⟩
  obtain ⟨c, s, rfl, -⟩ := h
  rw [List.length_cons]
  omega

theorem Grammar.passes {part : Part} {t : List Char} (h : Grammar part t) : Passes part t := by
  -- over all parts at once: a bracket, a brace or a comma is one turn more than what it stands at
  induction h with
  | null => exact passes_scalar (scalar_of_word rfl fun r => rfl)
  | yes => exact passes_scalar (scalar_of_word rfl fun r => rfl)
  | no => exact passes_scalar (scalar_of_word rfl fun r => rfl)
  | number number => exact passes_scalar (scalar_number number)
  | string inner => exact passes_scalar (scalar_string inner)
  | @emptyList gap gaps =>
    refine ⟨2, by simp, fun n frames g r hg hr => ?_⟩
    rw [List.cons_append, List.append_assoc, run_opening hg]
    exact run_opened_close (f := .list) gaps
  | @emptyObject gap gaps =>
    refine ⟨2, by simp, fun n frames g r hg hr => ?_⟩
    rw [List.cons_append, List.append_assoc, run_openingBrace hg]
    exact run_opened_close (f := .object) gaps
  | @list s items ih =>
    obtain ⟨k, hk, hrun⟩ := ih
    refine ⟨k + 3, ?_, fun n frames g r hg hr => ?_⟩
    · simp only [List.length_cons, List.length_append, List.length_nil]
      omega
    · -- the turn that opens the list looks at the first item and leaves it to the next turn
      obtain ⟨gap, c, u, hs, hgaps, hgap, hc⟩ := items.exists_item
      have hskip : skipGaps (s ++ ']' :: r) = c :: (u ++ ']' :: r) := by
        rw [hs, List.append_assoc, skipGaps_append hgaps, List.cons_append, skipGaps_cons hgap]
      have hitems := hrun n frames r
      rw [← run_value_skipGaps, hskip] at hitems
      rw [List.cons_append, List.append_assoc, List.singleton_append, ← Nat.add_assoc, run_opening hg, hs,
        List.append_assoc, List.cons_append, run_opened (f := .list) hgaps hgap hc]
      exact hitems
  | @object s members ih =>
    obtain ⟨k, hk, hrun⟩ := ih
    refine ⟨k + 2, ?_, fun n frames g r hg hr => ?_⟩
    · simp only [List.length_cons, List.length_append, List.length_nil]
      omega
    · obtain ⟨gap, u, hs, hgaps⟩ := members.exists_member
      have hskip : skipGaps (s ++ '\x7d' :: r) = '"' :: (u ++ '\x7d' :: r) := by
        rw [hs, List.append_assoc, skipGaps_append hgaps, List.cons_append, skipGaps_cons (by decide)]
      have hmembers := hrun n frames r
      rw [← key_skipGaps, hskip] at hmembers
      rw [List.cons_append, List.append_assoc, List.singleton_append, ← Nat.add_assoc, run_openingBrace hg, hs,
        List.append_assoc, List.cons_append, run_opened (f := .object) hgaps (by decide) (by decide)]
      exact hmembers
  | @item g t g' before value behind ih =>
    obtain ⟨k, hk, hrun⟩ := ih
    refine ⟨k, ?_, fun n frames r => ?_⟩
    · simp only [List.length_append]
      omega
    · have hstop : Stops (g' ++ ']' :: r) := behind.stops (stops_cons rfl)
      rw [List.append_assoc, List.append_assoc, Nat.add_right_comm, hrun _ _ _ _ before hstop]
      exact run_after_close (f := .list) behind
  | @items g t g' s before value behind rest ih ihrest =>
    obtain ⟨k, hk, hrun⟩ := ih
    obtain ⟨l, hl, hrest⟩ := ihrest
    refine ⟨l + 1 + k, ?_, fun n frames r => ?_⟩
    · simp only [List.length_append, List.length_cons]
      omega
    · have hstop : Stops (g' ++ ',' :: (s ++ ']' :: r)) := behind.stops (stops_cons rfl)
      have hfuel : n + (l + 1 + k) + 1 = n + l + 1 + 1 + k := by omega
      rw [List.append_assoc, List.append_assoc, List.append_assoc, List.cons_append, hfuel,
        hrun _ _ _ _ before hstop, run_after_comma behind]
      exact hrest n frames r
  | @member g k l g' t h before key left right value behind ih =>
    obtain ⟨m, hm, hrun⟩ := ih
    refine ⟨m + 1, ?_, fun n frames r => ?_⟩
    · simp only [List.length_append, List.length_cons]
      omega
    · have hstop : Stops (h ++ '\x7d' :: r) := behind.stops (stops_cons rfl)
      have htext : g ++ '"' :: (k ++ '"' :: (l ++ ':' :: (g' ++ (t ++ h)))) ++ '\x7d' :: r =
          g ++ '"' :: (k ++ '"' :: (l ++ ':' :: (g' ++ (t ++ (h ++ '\x7d' :: r))))) := by simp
      have hfuel : n + (m + 1) = n + 1 + m := by omega
      rw [htext, key_member before key left, hfuel]
      exact (hrun _ _ _ _ right hstop).trans (run_after_close (f := .object) behind)
  | @members g k l g' t h s before key left right value behind rest ih ihrest =>
    obtain ⟨m, hm, hrun⟩ := ih
    obtain ⟨q, hq, hrest⟩ := ihrest
    refine ⟨q + 1 + m, ?_, fun n frames r => ?_⟩
    · simp only [List.length_append, List.length_cons]
      omega
    · have hstop : Stops (h ++ ',' :: (s ++ '\x7d' :: r)) := behind.stops (stops_cons rfl)
      have htext : g ++ '"' :: (k ++ '"' :: (l ++ ':' :: (g' ++ (t ++ (h ++ ',' :: s))))) ++ '\x7d' :: r =
          g ++ '"' :: (k ++ '"' :: (l ++ ':' :: (g' ++ (t ++ (h ++ ',' :: (s ++ '\x7d' :: r)))))) := by simp
      have hfuel : n + (q + 1 + m) = n + q + 1 + m := by omega
      rw [htext, key_member before key left, hfuel]
      exact (hrun _ _ _ _ right hstop).trans ((run_after_comma behind).trans (hrest n frames r))

/-- Any value is passed over, in front of whatever may stand behind it. -/
theorem skipValue_grammar {g t r : List Char} (hg : Gaps g) (ht : Grammar .value t) (hr : Stops r) :
    skipValue (g ++ (t ++ r)) = .ok r := by
  obtain ⟨k, hk, hrun⟩ := ht.passes
  obtain ⟨n, hn⟩ : ∃ n, 2 * (g ++ (t ++ r)).length + 2 = n + 1 + k := by
    refine ⟨2 * (g ++ (t ++ r)).length + 1 - k, ?_⟩
    simp only [List.length_append]
    omega
  rw [skipValue, hn, hrun _ _ _ _ hg hr, Skip.run]

end Passing

end Json
end TwinWall
