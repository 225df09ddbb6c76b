import TwinWall.Proofs.Json.Container

/-! Values that are printed without blanks and read back. A number has to be whole and of 64 bits, and an object to
have its keys in order; such a text has no character below the blank in it, so it is one line. -/
namespace TwinWall
namespace Json

open Decimal

/-- Values of whole numbers, with containers nested to a depth and objects in the order of their keys. -/
inductive Plain : Nat → Value → Prop
  | null {d : Nat} : Plain d .null
  | bool {d : Nat} {b : Bool} : Plain d (.bool b)
  | whole {d : Nat} {n : Int} (fits : Fits n) : Plain d (.number (.whole n))
  | string {d : Nat} {s : String} : Plain d (.string s)
  | array {d : Nat} {items : List Value} (each : ∀ v ∈ items, Plain d v) : Plain (d + 1) (.array items)
  | object {d : Nat} {members : Members} (sorted : members.Pairwise fun p q => p.1 < q.1)
    (each : ∀ p ∈ members, Plain d p.2) : Plain (d + 1) (.object members)

/-- A number that is read back from its text, whatever may stand behind it. -/
def Reread (x : Number) : Prop :=
  Begins x.text.toList ∧ ∀ d r, Stops r → value d (x.text.toList ++ r) = .ok (.number x, r)

/-- As plain values are, but with any numbers that are read back. -/
inductive Faithful : Nat → Value → Prop
  | null {d : Nat} : Faithful d .null
  | bool {d : Nat} {b : Bool} : Faithful d (.bool b)
  | number {d : Nat} {x : Number} (reread : Reread x) : Faithful d (.number x)
  | string {d : Nat} {s : String} : Faithful d (.string s)
  | array {d : Nat} {items : List Value} (each : ∀ v ∈ items, Faithful d v) :
    Faithful (d + 1) (.array items)
  | object {d : Nat} {members : Members} (sorted : members.Pairwise fun p q => p.1 < q.1)
    (each : ∀ p ∈ members, Faithful d p.2) : Faithful (d + 1) (.object members)

/-- A key behind all others goes to the end. -/
theorem insert_last {k : String} {v : Value} {m : Members} (h : ∀ p ∈ m, p.1 < k) :
    Members.insert k v m = m ++ [(k, v)] := by
  induction m with
  | nil => rfl
  | cons p m ih =>
    obtain ⟨hp, hm⟩ := List.forall_mem_cons.1 h
    have hne : k ≠ p.1 := fun heq => String.lt_irrefl _ (heq ▸ hp)
    have hlt : ¬ k < p.1 := String.lt_asymm hp
    rw [Members.insert, if_neg hne, if_neg hlt, ih hm]
    rfl

section Sorted

variable {k : String} {v : Value} {m : Members}

theorem mem_insert {p : String × Value} (h : p ∈ Members.insert k v m) : p = (k, v) ∨ p ∈ m := by
  induction m with
  | nil => exact .inl (List.mem_singleton.1 h)
  | cons q m ih =>
    rw [Members.insert] at h
    split at h
    · exact (List.mem_cons.1 h).imp_right (List.mem_cons_of_mem q)
    split at h
    · exact List.mem_cons.1 h
    · rcases List.mem_cons.1 h with rfl | h
      · exact .inr List.mem_cons_self
      · exact (ih h).imp_right (List.mem_cons_of_mem q)

/-- The keys stay in order when one is put among them. -/
theorem sorted_insert (h : m.Pairwise fun p q => p.1 < q.1) :
    (Members.insert k v m).Pairwise fun p q => p.1 < q.1 := by
  induction m with
  | nil => exact List.pairwise_singleton _ _
  | cons q m ih =>
    obtain ⟨hq, hm⟩ := List.pairwise_cons.1 h
    rw [Members.insert]
    split
    · next heq => exact List.pairwise_cons.2 ⟨fun p hp => heq ▸ hq p hp, hm⟩
    split
    · next hlt =>
      refine List.pairwise_cons.2 ⟨fun p hp => ?_, h⟩
      rcases List.mem_cons.1 hp with rfl | hp
      · exact hlt
      · exact String.lt_trans hlt (hq p hp)
    · next hne hlt =>
      refine List.pairwise_cons.2 ⟨fun p hp => ?_, ih hm⟩
      rcases mem_insert hp with rfl | hp
      · exact Decidable.byContradiction fun hge =>
          hne (String.le_antisymm (String.not_lt.1 hge) (String.not_lt.1 hlt))
      · exact hq p hp

theorem sorted_ofList (l : List (String × Value)) :
    (Members.ofList l).Pairwise fun p q => p.1 < q.1 := by
  have hfold : ∀ (l : List (String × Value)) (m : Members), m.Pairwise (fun p q => p.1 < q.1) →
      (l.foldl (fun m p => Members.insert p.1 p.2 m) m).Pairwise fun p q => p.1 < q.1 := by
    intro l
    induction l with
    | nil => exact fun m hm => hm
    | cons p l ih => exact fun m hm => ih _ (sorted_insert hm)
  exact hfold l [] List.Pairwise.nil

theorem mem_ofList {l : List (String × Value)} {p : String × Value} (h : p ∈ Members.ofList l) :
    p ∈ l := by
  have hfold : ∀ (l : List (String × Value)) (m : Members),
      p ∈ l.foldl (fun m p => Members.insert p.1 p.2 m) m → p ∈ m ∨ p ∈ l := by
    intro l
    induction l with
    | nil => exact fun m hp => .inl hp
    | cons q l ih =>
      intro m hp
      rcases ih _ hp with hp | hp
      · rcases mem_insert hp with rfl | hp
        · exact .inr List.mem_cons_self
        · exact .inl hp
      · exact .inr (List.mem_cons_of_mem q hp)
  exact (hfold l [] h).resolve_left List.not_mem_nil

/-- A record of plain values is plain. -/
theorem plain_record {d : Nat} {l : List (String × Value)} (h : ∀ p ∈ l, Plain d p.2) :
    Plain (d + 1) (.record l) :=
  .object (sorted_ofList l) fun p hp => h p (mem_ofList hp)

end Sorted

section Text

theorem begins_cons {c : Char} {s : List Char} (h : isStop c = false) : Begins (c :: s) := ⟨c, s, rfl, h⟩

theorem begins_ofInt {n : Int} (h : Fits n) : Begins (ofInt n).toList := by
  obtain ⟨c, t, htext, ⟨rfl, -⟩ | ⟨hdigit, -⟩⟩ := ofInt_read h
  · exact ⟨_, t, htext, by decide⟩
  · exact ⟨c, t, htext, isStop_of_isDigit hdigit⟩

theorem begins_quoted (s : String) : Begins (quoted s).toList := by
  rw [toList_quoted]
  exact begins_cons (by decide)

theorem begins_faithful {d : Nat} {v : Value} (h : Faithful d v) : Begins v.compact.toList := by
  cases h with
  | null => exact begins_cons (by decide)
  | @bool _ b => cases b <;> exact begins_cons (by decide)
  | number reread => exact reread.1
  | string => exact begins_quoted _
  | array each =>
    rw [Value.compact, String.toList_append, String.toList_append]
    exact begins_cons (c := '[') (by decide)
  | object sorted each =>
    rw [Value.compact, String.toList_append, String.toList_append]
    exact begins_cons (c := '\x7b') (by decide)

/-- The compact text of a member, which is a key, a colon and a value. -/
def compactMember (k : String) (t : List Char) : MemberText where
  before := []
  spelling := k.toList.flatMap escape
  key := k
  left := []
  right := []
  value := t
  behind := []
  gaps_before := gaps_nil
  gaps_left := gaps_nil
  gaps_right := gaps_nil
  gaps_behind := gaps_nil
  spells := spells_string k

theorem text_compactMember (k : String) (v : Value) :
    (compactMember k v.compact.toList).text = (quoted k ++ ":" ++ v.compact).toList := by
  simp [compactMember, MemberText.text, MemberText.tail]

theorem compact_array (items : List Value) : (Value.array items).compact.toList =
    '[' :: ((",".intercalate (items.map Value.compact)).toList ++ [']']) := by
  simp [Value.compact]

theorem compact_object (m : Members) : (Value.object m).compact.toList = '\x7b' ::
    ((",".intercalate (m.map fun p => quoted p.1 ++ ":" ++ p.2.compact)).toList ++ ['\x7d']) := by
  simp [Value.compact]

/-- What is printed between the braces of an object are its members. -/
theorem body_compact (m : Members) : MemberText.Body
    (",".intercalate (m.map fun p => quoted p.1 ++ ":" ++ p.2.compact)).toList
    (m.map fun p => compactMember p.1 p.2.compact.toList) := by
  cases m with
  | nil => exact .none gaps_nil
  | cons p m =>
    have hbody := MemberText.Body.some (compactMember p.1 p.2.compact.toList)
      (m.map fun p => compactMember p.1 p.2.compact.toList)
    rw [text_compactMember, List.map_map] at hbody
    have hlater : m.map (MemberText.text ∘ fun p => compactMember p.1 p.2.compact.toList) =
        (m.map fun p => quoted p.1 ++ ":" ++ p.2.compact).map String.toList := by
      rw [List.map_map]
      exact List.map_congr_left fun p _ => text_compactMember p.1 p.2
    rw [hlater, ← toList_intercalate_comma] at hbody
    exact hbody

end Text

section Reading

/-- What a value is read from begins behind the gaps. -/
theorem value_gaps {g : List Char} (hg : Gaps g) (d : Nat) (s : List Char) :
    value d (g ++ s) = value d s := by
  rw [value.eq_def, value.eq_def, skipGaps_append hg]

theorem value_whole {n : Int} (h : Fits n) (d : Nat) {r : List Char} (hr : Stops r) :
    value d ((ofInt n).toList ++ r) = .ok (.number (.whole n), r) := by
  obtain ⟨c, t, htext, hread⟩ := ofInt_read h
  have hbegins := begins_ofInt h
  rw [value.eq_def, hbegins.skipGaps, htext, List.cons_append]
  rcases hread with ⟨rfl, hread⟩ | ⟨hdigit, hread⟩
  · simp [hread r hr, Except.map]
  · have hletters : c ≠ 'n' ∧ c ≠ 't' ∧ c ≠ 'f' ∧ c ≠ '-' := by
      refine ⟨?_, ?_, ?_, ?_⟩ <;> exact ne_of_isDigit hdigit (by decide)
    simp [hletters, hdigit, hread r hr, Except.map]

theorem value_quoted (s : String) (d : Nat) (r : List Char) :
    value d ((quoted s).toList ++ r) = .ok (.string s, r) := by
  rw [toList_quoted, List.cons_append, List.append_assoc, value.eq_def, skipGaps_cons (by decide)]
  simp [stringRest_spells (spells_string s), Except.map]

theorem value_null (d : Nat) (r : List Char) : value d (Value.null.compact.toList ++ r) = .ok (.null, r) := by
  have htext : Value.null.compact.toList ++ r = 'n' :: 'u' :: 'l' :: 'l' :: r := rfl
  rw [htext, value.eq_def, skipGaps_cons (by decide)]
  simp [word, Except.map]

theorem value_bool (b : Bool) (d : Nat) (r : List Char) :
    value d ((Value.bool b).compact.toList ++ r) = .ok (.bool b, r) := by
  cases b with
  | true =>
    have htext : (Value.bool true).compact.toList ++ r = 't' :: 'r' :: 'u' :: 'e' :: r := rfl
    rw [htext, value.eq_def, skipGaps_cons (by decide)]
    simp [word, Except.map]
  | false =>
    have htext : (Value.bool false).compact.toList ++ r = 'f' :: 'a' :: 'l' :: 's' :: 'e' :: r := rfl
    rw [htext, value.eq_def, skipGaps_cons (by decide)]
    simp [word, Except.map]

theorem value_list (d : Nat) (s : List Char) : value (d + 1) ('[' :: s) =
    (items (value d) (s.length + 1) true s).map fun p => (.array p.1, p.2) := by
  rw [value.eq_def, skipGaps_cons (by decide)]
  simp

/-- Takes a member into an object. -/
def takeMember (d : Nat) (m : Members) (k : String) : Reader Members := fun s => do
  let s ← colon s
  let (v, s) ← value d s
  .ok (Members.insert k v m, s)

theorem value_object (d : Nat) (s : List Char) : value (d + 1) ('\x7b' :: s) =
    (members (takeMember d) (s.length + 1) true [] s).map fun p => (.object p.1, p.2) := by
  rw [value.eq_def, skipGaps_cons (by decide)]
  rfl

theorem carries_takeMember {d : Nat} {l rest : Members}
    (sorted : (l ++ rest).Pairwise fun p q => p.1 < q.1)
    (each : ∀ p ∈ rest, Takes (value d) p.2.compact.toList p.2) :
    MemberText.Carries (takeMember d) l (rest.map fun p => compactMember p.1 p.2.compact.toList)
      (l ++ rest) := by
  induction rest generalizing l with
  | nil =>
    rw [List.append_nil]
    exact .nil
  | cons p rest ih =>
    obtain ⟨hp, hrest⟩ := List.forall_mem_cons.1 each
    have hbefore : ∀ q ∈ l, q.1 < p.1 := fun q hq =>
      (List.pairwise_append.1 sorted).2.2 q hq p List.mem_cons_self
    have hsplit : l ++ p :: rest = (l ++ [p]) ++ rest := by simp
    rw [hsplit] at sorted ⊢
    refine .cons (fun r hr => ?_) (ih sorted hrest)
    have hvalue : value d (p.2.compact.toList ++ r) = .ok (p.2, r) := hp.read hr
    have hmember : (compactMember p.1 p.2.compact.toList).key = p.1 := rfl
    rw [takeMember, MemberText.colon_tail, hmember, ← insert_last hbefore]
    simp [compactMember, hvalue, bind, Except.bind]

/-- The items of a list are read back if each of them is. -/
theorem items_compact {d : Nat} {l : List Value}
    (h : ∀ v ∈ l, Begins v.compact.toList ∧ Takes (value d) v.compact.toList v) {n : Nat}
    (hn : l.length < n) (r : List Char) :
    items (value d) n true ((",".intercalate (l.map Value.compact)).toList ++ ']' :: r) = .ok (l, r) := by
  cases l with
  | nil =>
    obtain ⟨n, rfl⟩ := Nat.exists_eq_succ_of_ne_zero (Nat.ne_zero_of_lt hn)
    exact items_close n true r
  | cons v l =>
    have hitems : ∀ p ∈ (v.compact.toList, v) :: l.map fun w => (w.compact.toList, w),
        Begins p.1 ∧ Takes (value d) p.1 p.2 := by
      rw [← List.map_cons (f := fun w : Value => (w.compact.toList, w)), List.forall_mem_map]
      exact h
    have hread := items_takes (r := r) hitems (n := n) (by simpa using hn)
    simp only [List.map_map, List.map_cons, Function.comp_def, List.map_id'] at hread
    rw [List.map_cons, toList_intercalate_comma, List.map_map, List.append_assoc]
    exact hread

theorem length_le_intercalate (l : List String) :
    l.length ≤ (",".intercalate l).toList.length + 1 := by
  cases l with
  | nil => exact Nat.zero_le _
  | cons s l =>
    have hlater := length_le_later (l.map String.toList)
    rw [List.length_map] at hlater
    rw [toList_intercalate_comma, List.length_cons, List.length_append]
    omega

theorem takes_faithful {d : Nat} {v : Value} (h : Faithful d v) : Takes (value d) v.compact.toList v := by
  induction h with
  | null => exact fun g r hg hr => (value_gaps hg ..).trans (value_null ..)
  | bool => exact fun g r hg hr => (value_gaps hg ..).trans (value_bool ..)
  | number reread => exact fun g r hg hr => (value_gaps hg ..).trans (reread.2 _ r hr)
  | string => exact fun g r hg hr => (value_gaps hg ..).trans (value_quoted ..)
  | @array d l each ih =>
    intro g r hg hr
    have hitems : ∀ v ∈ l, Begins v.compact.toList ∧ Takes (value d) v.compact.toList v :=
      fun v hv => ⟨begins_faithful (each v hv), ih v hv⟩
    rw [value_gaps hg, compact_array, List.cons_append, List.append_assoc, value_list,
      List.singleton_append, items_compact hitems]
    · rfl
    · have hlen := length_le_intercalate (l.map Value.compact)
      rw [List.length_map] at hlen
      rw [List.length_append, List.length_cons]
      omega
  | @object d m sorted each ih =>
    intro g r hg hr
    have hcarries := carries_takeMember (l := []) sorted ih
    rw [List.nil_append] at hcarries
    have hbody := body_compact m
    rw [value_gaps hg, compact_object, List.cons_append, List.append_assoc, value_object,
      List.singleton_append, MemberText.members_body hbody hcarries (hbody.length_lt r)]
    rfl

theorem reread_whole {n : Int} (h : Fits n) : Reread (.whole n) :=
  ⟨begins_ofInt h, fun d _ hr => value_whole h d hr⟩

theorem Plain.faithful {d : Nat} {v : Value} (h : Plain d v) : Faithful d v := by
  induction h with
  | null => exact .null
  | bool => exact .bool
  | whole fits => exact .number (reread_whole fits)
  | string => exact .string
  | array each ih => exact .array ih
  | object sorted each ih => exact .object sorted ih

theorem begins_compact {d : Nat} {v : Value} (h : Plain d v) : Begins v.compact.toList :=
  begins_faithful h.faithful

/-- What is printed is read back. -/
theorem takes_compact {d : Nat} {v : Value} (h : Plain d v) : Takes (value d) v.compact.toList v :=
  takes_faithful h.faithful

end Reading

section Line

/-- No character below the blank. -/
def Flat (s : String) : Prop := ∀ c ∈ s.toList, 0x20 ≤ c.toNat

instance (s : String) : Decidable (Flat s) := List.decidableBAll (fun c : Char => 0x20 ≤ c.toNat) s.toList

theorem Flat.append {s t : String} (hs : Flat s) (ht : Flat t) : Flat (s ++ t) := by
  intro c hc
  rw [String.toList_append, List.mem_append] at hc
  exact hc.elim (hs c) (ht c)

theorem Flat.intercalate {s : String} {l : List String} (hs : Flat s) (hl : ∀ t ∈ l, Flat t) :
    Flat (s.intercalate l) := by
  intro c hc
  rcases Text.mem_intercalate hc with hc | ⟨t, ht, hc⟩
  · exact hs c hc
  · exact hl t ht c hc

theorem flat_quoted (s : String) : Flat (quoted s) := by
  intro c hc
  rw [toList_quoted] at hc
  simp only [List.mem_cons, List.mem_append, List.mem_flatMap, List.not_mem_nil, or_false] at hc
  rcases hc with rfl | ⟨d, -, hc⟩ | rfl
  · decide
  · exact blank_le_of_mem_escape hc
  · decide

theorem flat_ofInt (n : Int) : Flat (ofInt n) := by
  have hrepr : ∀ n : Nat, Flat n.repr := by
    intro n c hc
    have hmem : c ∈ Nat.toDigits 10 n := by simpa using hc
    have hdigit := Nat.isDigit_of_mem_toDigits (by decide) (by decide) hmem
    exact Text.of_forall_ascii (P := fun c => c.isDigit = true → 0x20 ≤ c.toNat) (by decide)
      (Text.toNat_lt_of_isDigit hdigit) hdigit
  cases n with
  | ofNat n => exact hrepr n
  | negSucc n => exact Flat.append (by decide) (hrepr (n + 1))

/-- A member is flat if its value is. -/
theorem Flat.member {k t : String} (h : Flat t) : Flat (quoted k ++ ":" ++ t) :=
  ((flat_quoted k).append (by decide)).append h

theorem Flat.braced {l : List String} (h : ∀ t ∈ l, Flat t) :
    Flat ("\x7b" ++ ",".intercalate l ++ "\x7d") :=
  (Flat.append (by decide) (.intercalate (by decide) h)).append (by decide)

theorem flat_compact {d : Nat} {v : Value} (h : Plain d v) : Flat v.compact := by
  induction h with
  | null => decide
  | @bool _ b => cases b <;> decide
  | whole fits => exact flat_ofInt _
  | string => exact flat_quoted _
  | array each ih =>
    rw [Value.compact, Value.compactItems_eq_map]
    exact (Flat.append (by decide) (.intercalate (by decide) (List.forall_mem_map.2 ih))).append
      (by decide)
  | object sorted each ih =>
    rw [Value.compact, Value.compactMembers_eq_map]
    exact .braced (List.forall_mem_map.2 fun p hp => (ih p hp).member)

end Line

end Json
end TwinWall
