import TwinWall.Json.Reader
import TwinWall.Proofs.Json.Token

/-! Lists and objects as texts, and their reading. What is read for an item or for a member is left open here: it
is enough that each of them is read in its turn. -/
namespace TwinWall
namespace Json

/-- How the text of a value begins. -/
def Begins (t : List Char) : Prop := ∃ c s, t = c :: s ∧ isStop c = false

theorem Begins.skipGaps {t : List Char} (h : Begins t) (r : List Char) : skipGaps (t ++ r) = t ++ r := by
  obtain ⟨c, s, rfl, hc⟩ := h
  exact skipGaps_cons (isGap_of_isStop_eq_false hc) _

/-- A reader takes a text for a value, behind any gaps and in front of anything that may stand there. -/
def Takes {α : Type} (reader : Reader α) (t : List Char) (x : α) : Prop :=
  ∀ g r, Gaps g → Stops r → reader (g ++ (t ++ r)) = .ok (x, r)

theorem Takes.read {α : Type} {reader : Reader α} {t : List Char} {x : α} (h : Takes reader t x)
    {r : List Char} (hr : Stops r) : reader (t ++ r) = .ok (x, r) := h [] r gaps_nil hr

/-- What is read is handed on in another form. -/
theorem Takes.map {α β : Type} {reader : Reader α} {t : List Char} {x : α} (h : Takes reader t x)
    (f : α → β) : Takes (fun s => (reader s).map fun p => (f p.1, p.2)) t (f x) := by
  intro g r hg hr
  simp only [h g r hg hr]
  rfl

section Lists

variable {α : Type} {item : Reader α} {t r : List Char} {x : α}

/-- Texts one after another, each behind a comma. -/
def later (ts : List (List Char)) : List Char := ts.flatMap (',' :: ·)

theorem later_cons (t : List Char) (ts : List (List Char)) : later (t :: ts) = ',' :: (t ++ later ts) := rfl

theorem toList_intercalate_comma (s : String) (ls : List String) :
    (",".intercalate (s :: ls)).toList = s.toList ++ later (ls.map String.toList) := by
  induction ls generalizing s with
  | nil => simp [later]
  | cons l ls ih =>
    rw [String.intercalate_cons_of_ne_nil (by simp), String.toList_append, ih, List.map_cons, later_cons]
    simp

theorem stops_later {c : Char} (hc : isStop c = true) (ts : List (List Char)) (r : List Char) :
    Stops (later ts ++ c :: r) := by
  cases ts with
  | nil => exact stops_cons hc
  | cons t ts => exact stops_cons rfl

theorem length_le_later (ts : List (List Char)) : ts.length ≤ (later ts).length := by
  induction ts with
  | nil => exact Nat.le_refl 0
  | cons t ts ih =>
    rw [later_cons, List.length_cons, List.length_cons, List.length_append]
    omega

theorem ne_of_not_isStop {c : Char} (h : isStop c = false) : c ≠ ']' ∧ c ≠ '\x7d' := by
  constructor <;> (rintro rfl; exact absurd h (by decide))

theorem nextItem_first (ht : Begins t) : nextItem true (t ++ r) = .ok (true, t ++ r) := by
  rw [nextItem, ht.skipGaps]
  obtain ⟨c, s, rfl, hc⟩ := ht
  simp [(ne_of_not_isStop hc).1]

theorem nextItem_later (ht : Begins t) : nextItem false (',' :: (t ++ r)) = .ok (true, t ++ r) := by
  rw [nextItem, skipGaps_cons (by decide)]
  simp only [ht.skipGaps]
  obtain ⟨c, s, rfl, hc⟩ := ht
  simp [(ne_of_not_isStop hc).1]

theorem nextItem_close (first : Bool) (r : List Char) :
    nextItem first (']' :: r) = .ok (false, ']' :: r) := by
  rw [nextItem, skipGaps_cons (by decide)]
  rfl

theorem closeList_bracket (r : List Char) : closeList (']' :: r) = .ok r := by
  rw [closeList, skipGaps_cons (by decide)]
  rfl

theorem items_close (n : Nat) (first : Bool) (r : List Char) :
    items item (n + 1) first (']' :: r) = .ok ([], r) := by
  simp [items, nextItem_close, closeList_bracket, bind, Except.bind]

theorem items_later {ps : List (List Char × α)}
    (h : ∀ p ∈ ps, Begins p.1 ∧ Takes item p.1 p.2) {n : Nat} (hn : ps.length < n) :
    items item n false (later (ps.map Prod.fst) ++ ']' :: r) = .ok (ps.map Prod.snd, r) := by
  induction ps generalizing n with
  | nil =>
    obtain ⟨n, rfl⟩ := Nat.exists_eq_succ_of_ne_zero (Nat.ne_of_gt hn)
    exact items_close n false r
  | cons p ps ih =>
    obtain ⟨n, rfl⟩ := Nat.exists_eq_succ_of_ne_zero (Nat.ne_zero_of_lt hn)
    obtain ⟨⟨hbegins, htakes⟩, hps⟩ := List.forall_mem_cons.1 h
    have hrest := ih hps (Nat.lt_of_succ_lt_succ hn)
    have hitem := htakes.read (stops_later (c := ']') rfl (ps.map Prod.fst) r)
    rw [List.map_cons, later_cons, List.cons_append, List.append_assoc]
    simp [items, nextItem_later hbegins, hitem, hrest, bind, Except.bind]

/-- A list is read item by item. -/
theorem items_takes {p : List Char × α} {ps : List (List Char × α)}
    (h : ∀ q ∈ p :: ps, Begins q.1 ∧ Takes item q.1 q.2) {n : Nat} (hn : (p :: ps).length < n) :
    items item n true (p.1 ++ (later (ps.map Prod.fst) ++ ']' :: r)) =
      .ok ((p :: ps).map Prod.snd, r) := by
  obtain ⟨n, rfl⟩ := Nat.exists_eq_succ_of_ne_zero (Nat.ne_zero_of_lt hn)
  obtain ⟨⟨hbegins, htakes⟩, hps⟩ := List.forall_mem_cons.1 h
  have hrest := items_later (r := r) hps (Nat.lt_of_succ_lt_succ hn)
  have hitem := htakes.read (stops_later (c := ']') rfl (ps.map Prod.fst) r)
  simp [items, nextItem_first hbegins, hitem, hrest, bind, Except.bind]

end Lists

/-- A member of an object: a key between quotes, a colon and a value, with gaps in between. -/
structure MemberText where
  before : List Char
  spelling : List Char
  key : String
  left : List Char
  right : List Char
  value : List Char
  behind : List Char
  gaps_before : Gaps before
  gaps_left : Gaps left
  gaps_right : Gaps right
  gaps_behind : Gaps behind
  spells : Spells spelling key.toList

namespace MemberText

variable {σ : Type} {member : σ → String → Reader σ} {st st' : σ} {m : MemberText}
  {ms : List MemberText} {g r s : List Char}

/-- What stands behind the key, up to the end of the value. -/
def tail (m : MemberText) : List Char := m.left ++ ':' :: (m.right ++ m.value)

def text (m : MemberText) : List Char :=
  m.before ++ '"' :: (m.spelling ++ '"' :: (m.tail ++ m.behind))

theorem colon_tail (m : MemberText) (r : List Char) :
    colon (m.tail ++ r) = .ok (m.right ++ (m.value ++ r)) := by
  rw [tail, List.append_assoc, List.cons_append, List.append_assoc, colon, skipGaps_append m.gaps_left,
    skipGaps_cons (by decide)]
  rfl

/-- What stands inside the braces of an object. -/
inductive Body : List Char → List MemberText → Prop
  | none {g : List Char} (gaps : Gaps g) : Body g []
  | some (m : MemberText) (ms : List MemberText) : Body (m.text ++ later (ms.map text)) (m :: ms)

/-- Members are read one after another, each from the state that the one before it has left. -/
inductive Carries (member : σ → String → Reader σ) : σ → List MemberText → σ → Prop
  | nil {st : σ} : Carries member st [] st
  | cons {st mid st' : σ} {m : MemberText} {ms : List MemberText}
    (head : ∀ r, Stops r → member st m.key (m.tail ++ r) = .ok (mid, r))
    (rest : Carries member mid ms st') : Carries member st (m :: ms) st'

theorem nextKey_first (m : MemberText) (r : List Char) : nextKey true (m.text ++ r) =
    .ok (some m.key, m.tail ++ (m.behind ++ r)) := by
  rw [text, nextKey, List.append_assoc, List.cons_append, List.append_assoc, List.cons_append,
    List.append_assoc, skipGaps_append m.gaps_before, skipGaps_cons (by decide)]
  simp [nextKey.key, stringRest_spells m.spells, Except.map]

theorem nextKey_later (hg : Gaps g) (m : MemberText) (r : List Char) :
    nextKey false (g ++ ',' :: (m.text ++ r)) = .ok (some m.key, m.tail ++ (m.behind ++ r)) := by
  rw [text, nextKey, List.append_assoc, List.cons_append, List.append_assoc, List.cons_append,
    List.append_assoc, skipGaps_append hg, skipGaps_cons (by decide)]
  simp [skipGaps_append m.gaps_before, skipGaps_cons (c := '"') (by decide), nextKey.key,
    stringRest_spells m.spells, Except.map]

theorem nextKey_close (hg : Gaps g) (first : Bool) (r : List Char) :
    nextKey first (g ++ '\x7d' :: r) = .ok (none, '\x7d' :: r) := by
  rw [nextKey, skipGaps_append hg, skipGaps_cons (by decide)]
  rfl

theorem closeObject_brace (r : List Char) : closeObject ('\x7d' :: r) = .ok r := by
  rw [closeObject, skipGaps_cons (by decide)]
  rfl

theorem members_close (hg : Gaps g) (n : Nat) (first : Bool) (st : σ) (r : List Char) :
    members member (n + 1) first st (g ++ '\x7d' :: r) = .ok (st, r) := by
  simp [members, nextKey_close hg, closeObject_brace, bind, Except.bind]

theorem members_later (h : Carries member st ms st') (hg : Gaps g) {n : Nat} (hn : ms.length < n) :
    members member n false st (g ++ (later (ms.map text) ++ '\x7d' :: r)) = .ok (st', r) := by
  induction h generalizing n g with
  | nil =>
    obtain ⟨n, rfl⟩ := Nat.exists_eq_succ_of_ne_zero (Nat.ne_of_gt hn)
    exact members_close hg n false _ r
  | @cons st mid st' m ms head rest ih =>
    obtain ⟨n, rfl⟩ := Nat.exists_eq_succ_of_ne_zero (Nat.ne_zero_of_lt hn)
    have hturn := head _ (m.gaps_behind.stops (stops_later (c := '\x7d') rfl (ms.map text) r))
    have hrest := ih m.gaps_behind (Nat.lt_of_succ_lt_succ hn)
    rw [List.map_cons, later_cons, List.cons_append, List.append_assoc]
    simp [members, nextKey_later hg, hturn, hrest, bind, Except.bind]

/-- An object is read member by member. -/
theorem members_body (hbody : Body s ms) (h : Carries member st ms st') {n : Nat} (hn : ms.length < n)
    (r : List Char) : members member n true st (s ++ '\x7d' :: r) = .ok (st', r) := by
  obtain ⟨n, rfl⟩ := Nat.exists_eq_succ_of_ne_zero (Nat.ne_zero_of_lt hn)
  cases hbody with
  | none gaps =>
    cases h
    exact members_close gaps n true _ r
  | some m ms =>
    cases h with
    | cons head rest =>
      have hturn := head _ (m.gaps_behind.stops (stops_later (c := '\x7d') rfl (ms.map text) r))
      have hrest := members_later (r := r) rest m.gaps_behind (Nat.lt_of_succ_lt_succ hn)
      rw [List.append_assoc]
      simp [members, nextKey_first, hturn, hrest, bind, Except.bind]

theorem Body.length_le (h : Body s ms) : ms.length ≤ s.length := by
  cases h with
  | none gaps => exact Nat.zero_le _
  | some m ms =>
    have hlater := length_le_later (ms.map text)
    have htext : 0 < m.text.length := by simp [text]
    rw [List.length_map] at hlater
    rw [List.length_cons, List.length_append]
    omega

theorem Body.length_lt (h : Body s ms) (r : List Char) : ms.length < (s ++ '\x7d' :: r).length + 1 := by
  have := h.length_le
  rw [List.length_append]
  omega

end MemberText

end Json
end TwinWall
