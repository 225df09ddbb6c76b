import TwinWall.Json.Record
import TwinWall.Proofs.Json.Compact
import TwinWall.Proofs.Json.Passed

/-! Records as texts. The readers of single fields, and that of an object whose members are fields in any order,
each once, and other members in between. -/
namespace TwinWall
namespace Json

open MemberText
open Policy (map_eq_ok)

section Fields

/-- The text of a string with its quotes. -/
def inQuotes (t : List Char) : List Char := '"' :: (t ++ ['"'])

theorem inQuotes_append (t r : List Char) : inQuotes t ++ r = '"' :: (t ++ '"' :: r) := by
  simp [inQuotes]

theorem takes_stringOf (expected : String) {t s : List Char} (h : Spells t s) :
    Takes (stringOf expected) (inQuotes t) (String.ofList s) := by
  intro g r hg hr
  rw [stringOf, skipGaps_append hg, inQuotes_append, skipGaps_cons (by decide)]
  exact stringRest_spells h r

theorem takes_boolOf (b : Bool) : Takes boolOf (if b then "true" else "false").toList b := by
  intro g r hg hr
  rw [boolOf, skipGaps_append hg]
  cases b with
  | true =>
    have htext : (if true then "true" else "false" : String).toList ++ r = 't' :: 'r' :: 'u' :: 'e' :: r := rfl
    rw [htext, skipGaps_cons (by decide)]
    rfl
  | false =>
    have htext : (if false then "true" else "false" : String).toList ++ r =
        'f' :: 'a' :: 'l' :: 's' :: 'e' :: r := rfl
    rw [htext, skipGaps_cons (by decide)]
    rfl

theorem takes_optional_null {α : Type} (reader : Reader α) :
    Takes (optional reader) "null".toList none := by
  intro g r hg hr
  have htext : "null".toList ++ r = 'n' :: 'u' :: 'l' :: 'l' :: r := rfl
  rw [optional, skipGaps_append hg, htext, skipGaps_cons (by decide)]
  rfl

theorem takes_optional {α : Type} {reader : Reader α} {t : List Char} {x : α} (h : Takes reader t x)
    (hbegins : Begins t) (hn : t.head? ≠ some 'n') : Takes (optional reader) t (some x) := by
  intro g r hg hr
  have hread := h.read hr
  rw [optional, skipGaps_append hg, hbegins.skipGaps]
  obtain ⟨c, s, rfl, -⟩ := hbegins
  have hc : c ≠ 'n' := fun hc => hn (by rw [hc]; rfl)
  rw [List.cons_append] at hread ⊢
  split
  · next heq => exact absurd (List.cons.inj heq).1 hc
  · rw [hread]
    rfl

theorem takes_wordOf_inQuotes {α : Type} {words : List (String × α)} {w : String} {x : α}
    (h : words.lookup w = some x) {t : List Char} (ht : Spells t w.toList) (d : Nat) :
    Takes (wordOf words d) (inQuotes t) x := by
  intro g r hg hr
  rw [wordOf, skipGaps_append hg, inQuotes_append, skipGaps_cons (by decide)]
  simp [variantRest, stringRest_spells ht, h, bind, Except.bind]

theorem quoted_eq_inQuotes (s : String) : (quoted s).toList = inQuotes (s.toList.flatMap escape) := by
  rw [toList_quoted, inQuotes]

theorem takes_wordOf {α : Type} {words : List (String × α)} {w : String} {x : α}
    (h : words.lookup w = some x) (d : Nat) : Takes (wordOf words d) (quoted w).toList x := by
  rw [quoted_eq_inQuotes]
  exact takes_wordOf_inQuotes h (spells_string w) d

/-- A whole number is read if it is between the bounds. -/
theorem takes_wholeOf (expected : String) {low high n : Int} (hn : Fits n) (hlow : low ≤ n)
    (hhigh : n ≤ high) : Takes (wholeOf expected low high) (Decimal.ofInt n).toList n := by
  intro g r hg hr
  obtain ⟨c, t, htext, hread⟩ := ofInt_read hn
  rw [wholeOf, skipGaps_append hg, htext, List.cons_append]
  rcases hread with ⟨rfl, hread⟩ | ⟨hdigit, hread⟩
  · rw [skipGaps_cons (by decide)]
    simp [hread r hr, hlow, hhigh, bind, Except.bind]
  · have hgap := isGap_of_isStop_eq_false (isStop_of_isDigit hdigit)
    have hne : c ≠ '-' := ne_of_isDigit hdigit (by decide)
    rw [skipGaps_cons hgap]
    split
    · next heq => exact absurd (List.cons.inj heq).1 hne
    · next heq =>
      obtain ⟨rfl, rfl⟩ := List.cons.inj heq
      simp [hdigit, hread r hr, hlow, hhigh, bind, Except.bind]
    · next heq => cases heq

/-- What is read as a list is read as its items. -/
theorem listOf_value {d : Nat} {s r : List Char} {l : List Value} (h : value d s = .ok (.array l, r)) :
    listOf value d s = .ok (l, r) := by
  rw [value.eq_def] at h
  rw [listOf]
  split at h
  · cases h
  next c u heq =>
  iterate 3 (split at h; · obtain ⟨_, -, h⟩ := map_eq_ok.1 h; cases h)
  iterate 3 (split at h; · obtain ⟨⟨_, _⟩, -, h⟩ := map_eq_ok.1 h; cases h)
  split at h
  · next hc =>
    rw [heq, hc]
    split at h
    · cases h
    · obtain ⟨⟨_, _⟩, hitems, h⟩ := map_eq_ok.1 h
      cases h
      exact hitems
  split at h
  · split at h
    · cases h
    · obtain ⟨⟨_, _⟩, -, h⟩ := map_eq_ok.1 h
      cases h
  · cases h

theorem takes_listOf {d : Nat} {t : List Char} {l : List Value} (h : Takes (value d) t (.array l)) :
    Takes (listOf value d) t l :=
  fun g r hg hr => listOf_value (h g r hg hr)

end Fields

section Members

variable {σ : Type} {fields : List (RecordField σ)} {d : Nat} {st x : σ} {seen : List String}
  {m : MemberText} {r : List Char}

/-- A field that has not been there before is read. -/
theorem member_field {f : RecordField σ} (hfield : RecordField.find? fields m.key = some f)
    (hnew : m.key ∉ seen) (htakes : Takes (f.reader d st) m.value x) (hr : Stops r) :
    RecordField.member fields d (st, seen) m.key (m.tail ++ r) = .ok ((x, m.key :: seen), r) := by
  have hread := htakes m.right r m.gaps_right hr
  simp [RecordField.member, hfield, hnew, m.colon_tail, hread, bind, Except.bind]

/-- Any other member is passed over. -/
theorem member_other (hfield : RecordField.find? fields m.key = none)
    (hpassed : skipValue (m.right ++ (m.value ++ r)) = .ok r) :
    RecordField.member fields d (st, seen) m.key (m.tail ++ r) = .ok ((st, seen), r) := by
  simp [RecordField.member, hfield, m.colon_tail, hpassed, bind, Except.bind]

variable {ms : List MemberText} {last : σ × List String}

theorem carries_field {f : RecordField σ} (hfield : RecordField.find? fields m.key = some f)
    (hnew : m.key ∉ seen) (htakes : Takes (f.reader d st) m.value x)
    (hrest : Carries (RecordField.member fields d) (x, m.key :: seen) ms last) :
    Carries (RecordField.member fields d) (st, seen) (m :: ms) last :=
  .cons (fun _ hr => member_field hfield hnew htakes hr) hrest

theorem carries_other (hfield : RecordField.find? fields m.key = none)
    (hpassed : ∀ r, Stops r → skipValue (m.right ++ (m.value ++ r)) = .ok r)
    (hrest : Carries (RecordField.member fields d) (st, seen) ms last) :
    Carries (RecordField.member fields d) (st, seen) (m :: ms) last :=
  .cons (fun r hr => member_other hfield (hpassed r hr)) hrest

theorem find?_eq_none (h : m.key ∉ fields.map RecordField.key) : RecordField.find? fields m.key = none := by
  rw [RecordField.find?, List.find?_eq_none]
  intro f hf
  have hne : f.key ≠ m.key := fun heq => h (List.mem_map.2 ⟨f, hf, heq⟩)
  simpa using hne

theorem mem_keys_of_find? {f : RecordField σ} {k : String} (h : RecordField.find? fields k = some f) :
    k ∈ fields.map RecordField.key := by
  have hkey : f.key = k := by simpa using List.find?_some h
  exact List.mem_map.2 ⟨f, List.mem_of_find?_eq_some h, hkey⟩

/-- The keys of fields among some members, the last one first. -/
def givenAfter (fields : List (RecordField σ)) (seen : List String) (ms : List MemberText) : List String :=
  ((ms.map MemberText.key).filter (· ∈ fields.map RecordField.key)).reverse ++ seen

/-- Where the state of a record is told by the keys that have been given, it is so behind any members, each of
which gives a field that has not been there before or is another member. -/
theorem carries_given {part : List String → σ} {gives : String → List Char → Prop}
    (hgives : ∀ k t, gives k t → ∃ f, RecordField.find? fields k = some f ∧
      ∀ given, Takes (f.reader d (part given)) t (part (k :: given)))
    (hmembers : ∀ m ∈ ms, gives m.key m.value ∨
      m.key ∉ fields.map RecordField.key ∧ Grammar .value m.value)
    (hnodup : (givenAfter fields seen ms).Nodup) :
    Carries (RecordField.member fields d) (part seen, seen) ms
      (part (givenAfter fields seen ms), givenAfter fields seen ms) := by
  -- the keys that have been read so far are those that have been given
  induction ms generalizing seen with
  | nil => exact .nil
  | cons m ms ih =>
    obtain ⟨hm, hms⟩ := List.forall_mem_cons.1 hmembers
    rcases hm with hfield | ⟨hunknown, hvalue⟩
    · obtain ⟨f, hfind, htakes⟩ := hgives _ _ hfield
      have hgiven : givenAfter fields seen (m :: ms) = givenAfter fields (m.key :: seen) ms := by
        simp [givenAfter, -List.mem_map, mem_keys_of_find? hfind]
      rw [hgiven] at hnodup ⊢
      have hnew : m.key ∉ seen := by
        rw [givenAfter] at hnodup
        exact (List.nodup_cons.1 (List.nodup_append.1 hnodup).2.1).1
      exact carries_field hfind hnew (htakes seen) (ih hms hnodup)
    · have hgiven : givenAfter fields seen (m :: ms) = givenAfter fields seen ms := by
        simp [givenAfter, -List.mem_map, hunknown]
      rw [hgiven] at hnodup ⊢
      exact carries_other (find?_eq_none hunknown)
        (fun r hr => skipValue_grammar m.gaps_right hvalue hr) (ih hms hnodup)

/-- A record that is an object is read if its members are and nothing is missing. -/
theorem recordOf_object {expected : String} {required : List String} {start : σ}
    {ms : List MemberText} {g s : List Char} (hg : Gaps g) (hbody : Body s ms)
    (hmembers : Carries (RecordField.member fields d) (start, []) ms (st, seen))
    (hrequired : ∀ k ∈ required, k ∈ seen) (r : List Char) :
    recordOf expected fields required start (d + 1) (g ++ '\x7b' :: (s ++ '\x7d' :: r)) = .ok (st, r) := by
  have hread := members_body hbody hmembers (hbody.length_lt r) r
  have hnone : (required.find? fun k => !seen.contains k) = none := by
    rw [List.find?_eq_none]
    intro k hk
    simpa using hrequired k hk
  rw [recordOf, skipGaps_append hg, skipGaps_cons (by decide)]
  simp only [hread, bind, Except.bind, hnone]

theorem readAll_object {expected : String} {required : List String} {start : σ}
    {ms : List MemberText} {g g' s : List Char} (hg : Gaps g) (hg' : Gaps g') (hbody : Body s ms)
    (hmembers : Carries (RecordField.member fields d) (start, []) ms (st, seen))
    (hrequired : ∀ k ∈ required, k ∈ seen) {text : String}
    (htext : text.toList = g ++ '\x7b' :: (s ++ '\x7d' :: g')) :
    readAll (recordOf expected fields required start (d + 1)) text = .ok st := by
  rw [readAll, htext, recordOf_object hg hbody hmembers hrequired]
  simp [bind, Except.bind, finish, skipGaps_gaps hg']

/-- The text of an object that gives fields of a record, each of them once, with other members among them. -/
structure Fills (fields : List (RecordField σ)) (gives : String → List Char → Prop) (t : List Char)
    (ms : List MemberText) : Prop where
  shape : ∃ s, Body s ms ∧ t = '\x7b' :: (s ++ ['\x7d'])
  members : ∀ m ∈ ms, gives m.key m.value ∨ m.key ∉ fields.map RecordField.key ∧ Grammar .value m.value
  once : ((ms.map MemberText.key).filter (· ∈ fields.map RecordField.key)).Nodup

/-- What is read is told by the keys that are given, in whatever order. -/
theorem takes_fills {part : List String → σ} {gives : String → List Char → Prop} {expected : String}
    {t : List Char} (hgives : ∀ k t, gives k t → ∃ f, RecordField.find? fields k = some f ∧
      ∀ given, Takes (f.reader d (part given)) t (part (k :: given)))
    (hpart : ∀ l l', (∀ k ∈ fields.map RecordField.key, k ∈ l ↔ k ∈ l') → part l = part l')
    (h : Fills fields gives t ms) :
    Takes (recordOf expected fields [] (part []) (d + 1)) t (part (ms.map MemberText.key)) := by
  intro g r hg _
  obtain ⟨⟨s, hbody, rfl⟩, hmembers, honce⟩ := h
  have hnodup : (givenAfter fields [] ms).Nodup := by
    rw [givenAfter, List.append_nil]
    exact (List.reverse_perm _).nodup_iff.2 honce
  have hsame : part (givenAfter fields [] ms) = part (ms.map MemberText.key) := by
    refine hpart _ _ fun k hk => ?_
    rw [givenAfter, List.append_nil, List.mem_reverse, List.mem_filter]
    exact and_iff_left (decide_eq_true hk)
  have hcarries := carries_given (d := d) hgives hmembers hnodup
  have hrequired : ∀ k ∈ ([] : List String), k ∈ givenAfter fields [] ms := nofun
  rw [List.cons_append, List.append_assoc, ← hsame]
  exact recordOf_object hg hbody hcarries hrequired r

/-- The members of the print of an object. -/
def compactMembers (m : Json.Members) : List MemberText := m.map fun p => compactMember p.1 p.2.compact.toList

theorem key_compactMembers (m : Json.Members) : (compactMembers m).map MemberText.key = m.map Prod.fst := by
  rw [compactMembers, List.map_map]
  rfl

/-- An object whose members are fields is printed as such. -/
theorem fills_compact {gives : String → List Char → Prop} {m : Json.Members}
    (h : ∀ p ∈ m, gives p.1 p.2.compact.toList) (once : (m.map Prod.fst).Nodup) :
    Fills fields gives (Value.object m).compact.toList (compactMembers m) where
  shape := ⟨_, body_compact m, compact_object m⟩
  members := List.forall_mem_map.2 fun p hp => .inl (h p hp)
  once := by
    rw [key_compactMembers]
    exact once.filter _

end Members

/-- A text without anything but gaps around what is taken. -/
theorem readAll_takes {α : Type} {reader : Reader α} {t : List Char} {x : α} (h : Takes reader t x)
    {g g' : List Char} (hg : Gaps g) (hg' : Gaps g') {text : String} (htext : text.toList = g ++ (t ++ g')) :
    readAll reader text = .ok x := by
  have hstops : Stops g' := List.append_nil g' ▸ hg'.stops (s := []) nofun
  rw [readAll, htext, h g g' hg hstops]
  simp [bind, Except.bind, finish, skipGaps_gaps hg']

end Json
end TwinWall
