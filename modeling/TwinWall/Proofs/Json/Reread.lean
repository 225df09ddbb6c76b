import TwinWall.Proofs.Json.Numerals

/-! Reading of texts whose numbers are whole. Each reader leaves such a text behind, whatever the layout and the
spelling, and the values that are read are read back from their print. -/
namespace TwinWall
namespace Json

open Policy

/-- What is read is as stated, and the numbers behind it are whole if those of the text are. -/
def Keeps {α : Type} (reader : Reader α) (P : α → Prop) : Prop :=
  ∀ ⦃s x r⦄, Integral s → reader s = .ok (x, r) → Integral r ∧ P x

theorem Keeps.map {α β : Type} {reader : Reader α} {P : α → Prop} {Q : β → Prop} (h : Keeps reader P)
    (f : α → β) (hf : ∀ x, P x → Q (f x)) : Keeps (fun s => (reader s).map fun p => (f p.1, p.2)) Q := by
  intro s y r hs hread
  obtain ⟨⟨x, t⟩, hx, hy⟩ := map_eq_ok.1 hread
  cases hy
  exact (h hs hx).imp_right (hf x)

section Containers

variable {α σ : Type} {item : Reader α} {P : α → Prop} {member : σ → String → Reader σ} {I : σ → Prop}

theorem Keeps.items (h : Keeps item P) (n : Nat) (first : Bool) :
    Keeps (items item n first) fun xs => ∀ x ∈ xs, P x := by
  induction n generalizing first with
  | zero => exact nofun
  | succ n ih =>
    intro s xs r hs hread
    obtain ⟨⟨more, t⟩, hnext, hread⟩ := bind_eq_ok.1 hread
    have ht := integral_of_eq hs (numerals_nextItem hnext)
    cases more with
    | true =>
      obtain ⟨⟨x, t'⟩, hitem, hread⟩ := bind_eq_ok.1 hread
      obtain ⟨ht', hx⟩ := h ht hitem
      obtain ⟨⟨ys, t''⟩, hitems, hread⟩ := bind_eq_ok.1 hread
      obtain ⟨ht'', hys⟩ := ih false ht' hitems
      cases hread
      exact ⟨ht'', List.forall_mem_cons.2 ⟨hx, hys⟩⟩
    | false =>
      obtain ⟨t', hclose, hread⟩ := bind_eq_ok.1 hread
      cases hread
      exact ⟨integral_of_eq ht (numerals_closeList hclose), nofun⟩

/-- An invariant of the single members is one of the object. -/
theorem Keeps.members (h : ∀ st k, I st → Keeps (member st k) I) (n : Nat) (first : Bool) {st : σ}
    (hst : I st) : Keeps (members member n first st) I := by
  induction n generalizing first st with
  | zero => exact nofun
  | succ n ih =>
    intro s x r hs hread
    obtain ⟨⟨k, t⟩, hkey, hread⟩ := bind_eq_ok.1 hread
    have ht := integral_of_eq hs (numerals_nextKey hkey)
    cases k with
    | none =>
      obtain ⟨t', hclose, hread⟩ := bind_eq_ok.1 hread
      cases hread
      exact ⟨integral_of_eq ht (numerals_closeObject hclose), hst⟩
    | some k =>
      obtain ⟨⟨st', t'⟩, hmember, hread⟩ := bind_eq_ok.1 hread
      obtain ⟨ht', hst'⟩ := h st k hst ht hmember
      exact ih false hst' ht' hread

end Containers

section Values

variable {s r : List Char} {c : Char}

/-- A member that is taken into an object leaves the keys in order. -/
theorem keeps_takeMember {d : Nat} (hvalue : Keeps (value d) (Faithful d)) (m : Members) (k : String)
    (hm : Faithful (d + 1) (.object m)) :
    Keeps (takeMember d m k) fun m => Faithful (d + 1) (.object m) := by
  intro s m' r hs hread
  obtain ⟨t, hcolon, hread⟩ := bind_eq_ok.1 hread
  have ht := integral_of_eq hs (numerals_colon hcolon)
  obtain ⟨⟨v, t'⟩, hv, hread⟩ := bind_eq_ok.1 hread
  obtain ⟨ht', hfaithful⟩ := hvalue ht hv
  cases hread
  cases hm with
  | object sorted each =>
    refine ⟨ht', .object (sorted_insert sorted) fun p hp => ?_⟩
    rcases mem_insert hp with rfl | hp
    · exact hfaithful
    · exact each p hp

/-- Every value that is read is read back from its print. -/
theorem keeps_value (d : Nat) : Keeps (value d) (Faithful d) := by
  induction d using Nat.strongRecOn with
  | _ d ih =>
    intro s v r hs hread
    rw [value.eq_def] at hread
    split at hread
    · cases hread
    next c t heq =>
    have ht : Integral (c :: t) := integral_of_eq hs (numerals_of_skipGaps heq)
    split at hread
    · next hc =>
      obtain ⟨t', hword, hread⟩ := map_eq_ok.1 hread
      cases hread
      exact ⟨ht.word (hc ▸ rfl) rfl hword, .null⟩
    split at hread
    · next hc =>
      obtain ⟨t', hword, hread⟩ := map_eq_ok.1 hread
      cases hread
      exact ⟨ht.word (hc ▸ rfl) rfl hword, .bool⟩
    split at hread
    · next hc =>
      obtain ⟨t', hword, hread⟩ := map_eq_ok.1 hread
      cases hread
      exact ⟨ht.word (hc ▸ rfl) rfl hword, .bool⟩
    split at hread
    · next hc =>
      obtain ⟨⟨x, t'⟩, hnumber, hread⟩ := map_eq_ok.1 hread
      cases hread
      obtain ⟨n, u, hfront, hn, hu⟩ := front_of_minus (hc ▸ ht)
      obtain ⟨rfl, hx⟩ := hfront.reread_minus hn hnumber
      exact ⟨hu, .number hx⟩
    split at hread
    · next hc =>
      obtain ⟨⟨x, t'⟩, hnumber, hread⟩ := map_eq_ok.1 hread
      cases hread
      obtain ⟨n, u, hfront, hn, hu⟩ := front_of_digit hc ht
      obtain ⟨rfl, hx⟩ := hfront.reread hn hnumber
      exact ⟨hu, .number hx⟩
    split at hread
    · next hc =>
      obtain ⟨⟨x, t'⟩, hstring, hread⟩ := map_eq_ok.1 hread
      cases hread
      exact ⟨integral_of_eq (hc ▸ ht) (numerals_stringRest hstring), .string⟩
    split at hread
    · next hc =>
      split at hread
      · cases hread
      · next d =>
        obtain ⟨⟨l, t'⟩, hitems, hread⟩ := map_eq_ok.1 hread
        cases hread
        have hrest : Integral t := integral_of_eq ht (hc ▸ rfl)
        obtain ⟨ht', hl⟩ := (ih d (Nat.lt_succ_self d)).items _ true hrest hitems
        exact ⟨ht', .array hl⟩
    split at hread
    · next hc =>
      split at hread
      · cases hread
      · next d =>
        obtain ⟨⟨m, t'⟩, hmembers, hread⟩ := map_eq_ok.1 hread
        cases hread
        have hrest : Integral t := integral_of_eq ht (hc ▸ rfl)
        have hstep := keeps_takeMember (ih d (Nat.lt_succ_self d))
        exact Keeps.members hstep _ true (.object .nil (List.forall_mem_nil _)) hrest hmembers
    · cases hread

end Values

section Passing

variable {s r : List Char} {c : Char} {frames : List Skip.Frame}

theorem numerals_skipKey (h : Skip.key frames s = .ok r) : numerals .outside r = numerals .outside s := by
  rw [Skip.key.eq_def] at h
  split at h
  · split at h
    · cases h
    · next c t heq =>
      split at h
      · next hc =>
        obtain ⟨t', hstring, hcolon⟩ := bind_eq_ok.1 h
        rw [numerals_colon hcolon, numerals_string hstring, ← numerals_of_skipGaps heq, hc]
        rfl
      · cases h
  · cases h
    rfl

theorem integral_scalar (hs : Integral (c :: s)) (h : Skip.scalar c s = some (.ok r)) : Integral r := by
  rw [Skip.scalar] at h
  split at h
  · next hc => exact hs.word (hc ▸ rfl) rfl (Option.some.inj h)
  split at h
  · next hc => exact hs.word (hc ▸ rfl) rfl (Option.some.inj h)
  split at h
  · next hc => exact hs.word (hc ▸ rfl) rfl (Option.some.inj h)
  split at h
  · next hc =>
    obtain ⟨n, u, hfront, -, hu⟩ := front_of_minus (hc ▸ hs)
    exact hfront.skip (Option.some.inj h) ▸ hu
  split at h
  · next hc =>
    obtain ⟨n, u, hfront, -, hu⟩ := front_of_digit hc hs
    exact hfront.skip (Option.some.inj h) ▸ hu
  split at h
  · next hc =>
    subst hc
    exact integral_of_eq hs (numerals_string (Option.some.inj h))
  split at h
  · cases h
  · cases h

/-- Where no value without parts stands, a container opens. -/
theorem behind_of_scalar (h : Skip.scalar c s = none) : Place.behind c = .outside := by
  rw [Skip.scalar] at h
  iterate 6 (split at h; · cases h)
  split at h
  · next hc => rcases hc with rfl | rfl <;> rfl
  · cases h

theorem behind_close (f : Skip.Frame) : Place.behind f.close = .outside := by
  cases f <;> rfl

theorem integral_run {n : Nat} {turn : Skip.Turn} (hs : Integral s)
    (h : Skip.run n turn frames s = .ok r) : Integral r := by
  induction n generalizing turn frames s with
  | zero => cases h
  | succ n ih =>
    cases turn with
    | value =>
      rw [Skip.run] at h
      split at h
      · cases h
      · next c t heq =>
        have ht : Integral (c :: t) := integral_of_eq hs (numerals_of_skipGaps heq)
        split at h
        · next hscalar => exact ih (integral_scalar ht hscalar) h
        · cases h
        · next hscalar => exact ih (integral_of_eq hs (numerals_of_free heq (behind_of_scalar hscalar))) h
    | after =>
      cases frames with
      | nil =>
        cases h
        exact hs
      | cons f frames =>
        rw [Skip.run] at h
        split at h
        · cases h
        · next c t heq =>
          split at h
          · next hc =>
            obtain ⟨t', hkey, h⟩ := bind_eq_ok.1 h
            have ht : Integral t := integral_of_eq hs (numerals_of_free heq (hc ▸ rfl))
            exact ih (integral_of_eq ht (numerals_skipKey hkey)) h
          split at h
          · next hc => exact ih (integral_of_eq hs (numerals_of_free heq (hc ▸ behind_close f))) h
          · cases h
    | opened =>
      rw [Skip.run.eq_def] at h
      dsimp only at h
      split at h
      · cases h
        exact integral_of_eq hs (numerals_skipGaps s)
      · cases h
      · next f frames c t heq =>
        split at h
        · next hc => exact ih (integral_of_eq hs (numerals_of_free heq (hc ▸ behind_close f))) h
        · obtain ⟨t', hkey, h⟩ := bind_eq_ok.1 h
          have ht : Integral (c :: t) := integral_of_eq hs (numerals_of_skipGaps heq)
          exact ih (integral_of_eq ht (numerals_skipKey hkey)) h

theorem integral_skipValue (hs : Integral s) (h : skipValue s = .ok r) : Integral r := integral_run hs h

end Passing

section Records

variable {α σ : Type} {I : σ → Prop} {fields : List (RecordField σ)} {d : Nat}

theorem keeps_listOf {item : Nat → Reader α} {P : α → Prop} (h : Keeps (item d) P) :
    Keeps (listOf item (d + 1)) fun xs => ∀ x ∈ xs, P x := by
  intro s xs r hs hread
  rw [listOf] at hread
  split at hread
  · next heq => exact h.items _ true (integral_of_eq hs (numerals_of_free heq rfl)) hread
  · cases hread

theorem keeps_variantRest (words : List (String × α)) {s r : List Char} {x : α} (hs : Integral ('"' :: s))
    (h : variantRest words s = .ok (x, r)) : Integral r := by
  obtain ⟨⟨t, u⟩, hstring, h⟩ := bind_eq_ok.1 h
  dsimp only at h
  split at h
  · cases h
    exact integral_of_eq hs (numerals_stringRest hstring)
  · cases h

theorem keeps_wordOf (words : List (String × α)) (d : Nat) : Keeps (wordOf words d) fun _ => True := by
  intro s x r hs hread
  refine ⟨?_, trivial⟩
  rw [wordOf] at hread
  split at hread
  · cases hread
  · next heq => exact keeps_variantRest words (integral_of_eq hs (numerals_of_skipGaps heq)) hread
  · next t heq =>
    have ht : Integral t := integral_of_eq hs (numerals_of_free heq rfl)
    split at hread
    · cases hread
    obtain ⟨⟨y, t'⟩, hkey, hread⟩ := bind_eq_ok.1 hread
    have ht' : Integral t' := by
      rw [variantKey.eq_def] at hkey
      split at hkey
      · next heq' => exact keeps_variantRest words (integral_of_eq ht (numerals_of_skipGaps heq')) hkey
      all_goals cases hkey
    obtain ⟨t'', hcolon, hread⟩ := bind_eq_ok.1 hread
    have ht'' := integral_of_eq ht' (numerals_colon hcolon)
    dsimp only at hread
    split at hread
    · next heq' =>
      obtain ⟨u, hnull, hread⟩ := bind_eq_ok.1 hread
      have hu : Integral u := (integral_of_eq ht'' (numerals_of_skipGaps heq')).word rfl rfl hnull
      split at hread
      · next heq'' =>
        cases hread
        exact integral_of_eq hu (numerals_of_free heq'' rfl)
      all_goals cases hread
    · cases hread
  · cases hread

theorem keeps_member (hfields : ∀ f ∈ fields, ∀ st, I st → Keeps (f.reader d st) I) (st : σ × List String)
    (k : String) (hst : I st.1) : Keeps (RecordField.member fields d st k) fun st => I st.1 := by
  intro s x r hs hread
  rw [RecordField.member] at hread
  split at hread
  · next f hfind =>
    split at hread
    · cases hread
    · obtain ⟨t, hcolon, hread⟩ := bind_eq_ok.1 hread
      have ht := integral_of_eq hs (numerals_colon hcolon)
      obtain ⟨⟨y, t'⟩, hfield, hread⟩ := bind_eq_ok.1 hread
      cases hread
      exact hfields f (List.mem_of_find?_eq_some hfind) st.1 hst ht hfield
  · obtain ⟨t, hcolon, hread⟩ := bind_eq_ok.1 hread
    have ht := integral_of_eq hs (numerals_colon hcolon)
    obtain ⟨t', hskip, hread⟩ := bind_eq_ok.1 hread
    cases hread
    exact ⟨integral_skipValue ht hskip, hst⟩

theorem keeps_inOrder (hfields : ∀ f ∈ fields, ∀ st, I st → Keeps (f.reader d st) I) (n : Nat) {st : σ}
    (hst : I st) : Keeps (RecordField.inOrder d fields n st) fun p => I p.1 := by
  induction fields generalizing n st with
  | nil =>
    intro s x r hs hread
    cases hread
    exact ⟨hs, hst⟩
  | cons f fields ih =>
    obtain ⟨hf, hfields⟩ := List.forall_mem_cons.1 hfields
    intro s x r hs hread
    rw [RecordField.inOrder] at hread
    obtain ⟨⟨more, t⟩, hnext, hread⟩ := bind_eq_ok.1 hread
    have ht := integral_of_eq hs (numerals_nextItem hnext)
    cases more with
    | true =>
      obtain ⟨⟨st', t'⟩, hfield, hread⟩ := bind_eq_ok.1 hread
      obtain ⟨ht', hst'⟩ := hf st hst ht hfield
      exact ih hfields (n + 1) hst' ht' hread
    | false =>
      cases hread
      exact ⟨ht, hst⟩

/-- An invariant of the fields is one of the record, be it an object or a list. -/
theorem keeps_recordOf {expected : String} {required : List String} {start : σ} (hstart : I start)
    (hfields : ∀ f ∈ fields, ∀ st, I st → Keeps (f.reader d st) I) :
    Keeps (recordOf expected fields required start (d + 1)) I := by
  intro s x r hs hread
  rw [recordOf] at hread
  split at hread
  · next heq =>
    have ht := integral_of_eq hs (numerals_of_free heq rfl)
    obtain ⟨⟨⟨st, n⟩, t'⟩, horder, hread⟩ := bind_eq_ok.1 hread
    obtain ⟨ht', hst⟩ := keeps_inOrder hfields 0 hstart ht horder
    obtain ⟨t'', hclose, hread⟩ := bind_eq_ok.1 hread
    split at hread
    · cases hread
    · cases hread
      exact ⟨integral_of_eq ht' (numerals_closeList hclose), hst⟩
  · next t heq =>
    have ht := integral_of_eq hs (numerals_of_free heq rfl)
    obtain ⟨⟨⟨st, seen⟩, t'⟩, hmembers, hread⟩ := bind_eq_ok.1 hread
    have hkeeps : Keeps (members (RecordField.member fields d) (t.length + 1) true (start, []))
        fun st => I st.1 := Keeps.members (keeps_member hfields) _ true hstart
    obtain ⟨ht', hst⟩ := hkeeps ht hmembers
    dsimp only at hread
    split at hread
    · cases hread
    · cases hread
      exact ⟨ht', hst⟩
  · cases hread

theorem of_readAll {reader : Reader α} {P : α → Prop} (h : Keeps reader P) {text : String} {x : α}
    (htext : Integral text.toList) (hread : readAll reader text = .ok x) : P x := by
  obtain ⟨⟨y, r⟩, hy, hfinish⟩ := bind_eq_ok.1 hread
  rw [finish] at hfinish
  split at hfinish
  · cases hfinish
    exact (h htext hy).2
  · cases hfinish

end Records

end Json
end TwinWall
