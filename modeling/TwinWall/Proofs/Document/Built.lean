import TwinWall.Document.Assemble
import TwinWall.Proofs.Document.RoundTrip

/-! A document that was built is the table of a checked policy, and its text reads as that table. -/
namespace TwinWall
namespace Document

open Net Policy Text

variable {r : Rule} {mark : String}

theorem readable_pair {c d : Clause} (hc : c.Readable) (hd : d.Readable) : Line.Readable [c, d] := by
  refine ⟨by simp, ?_⟩
  simp only [List.forall_mem_cons]
  exact ⟨hc, hd, nofun⟩

/-- Clauses in front of a line. -/
theorem readable_append {m l : Line} (hm : ∀ c ∈ m, c.Readable) (hl : l.Readable) :
    Line.Readable (m ++ l) := by
  refine ⟨List.append_ne_nil_of_right_ne_nil m hl.1, fun c hc => ?_⟩
  rcases List.mem_append.1 hc with hc | hc
  · exact hm c hc
  · exact hl.2 c hc

theorem readable_incomingClause {d : Direction} (h : d.Sound) :
    ∀ c ∈ incomingClause d, c.Readable := by
  intro c hc
  cases d with
  | input i =>
    cases i with
    | any => cases hc
    | named n =>
      obtain rfl := List.mem_singleton.1 hc
      exact h.isPlain
  | output o => cases hc
  | forward i o =>
    cases i with
    | any => cases hc
    | named n =>
      obtain rfl := List.mem_singleton.1 hc
      exact h.1.isPlain

theorem readable_outgoingClause {d : Direction} (h : d.Sound) :
    ∀ c ∈ outgoingClause d, c.Readable := by
  intro c hc
  cases d with
  | input i => cases hc
  | output o =>
    cases o with
    | any => cases hc
    | named n =>
      obtain rfl := List.mem_singleton.1 hc
      exact h.isPlain
  | forward i o =>
    cases o with
    | any => cases hc
    | named n =>
      obtain rfl := List.mem_singleton.1 hc
      exact h.2.isPlain

theorem readable_addressClause {f : Family} {s : Side} {a : AddressMatch} (h : a.Sound f) :
    ∀ c ∈ addressClause f s a, c.Readable := by
  intro c hc
  cases a with
  | any => cases hc
  | set n =>
    obtain rfl := List.mem_singleton.1 hc
    exact h.isPlain
  | list l =>
    obtain rfl := List.mem_singleton.1 hc
    exact h

theorem readable_portClause {t : Transport} {p : PortMatch} (ht : t ≠ .esp) (h : p.Sound) :
    (portClause t p).Readable := by
  cases p with
  | set n => exact ⟨ht, h.isPlain⟩
  | list l =>
    cases l with
    | nil => trivial
    | cons e l => exact ⟨ht, by simp, h⟩

theorem readable_verdictClauses (h : r.Sound) : Line.Readable (verdictClauses r) := by
  cases hj : jumpChain? r with
  | some c =>
    rw [verdictClauses, hj]
    refine ⟨by simp, fun d hd => ?_⟩
    obtain rfl := List.mem_singleton.1 hd
    trivial
  | none =>
    have hports : ∀ t : Transport, t ≠ .esp →
        Line.Readable [portClause t r.ports, .verdict r.action] :=
      fun t ht => readable_pair (readable_portClause ht h.ports) trivial
    have hverdict : Line.Readable [.verdict r.action] := by
      refine ⟨by simp, ?_⟩
      simp only [List.forall_mem_cons]
      exact ⟨trivial, nofun⟩
    rw [verdictClauses, hj]
    simp only
    split
    · exact hports .tcp (by decide)
    · exact hports .udp (by decide)
    · exact hverdict

theorem readable_conditions (h : r.Sound) : ∀ c ∈ conditions r, c.Readable := by
  intro c hc
  simp only [conditions, List.mem_append] at hc
  rcases hc with ((hc | hc) | hc) | hc
  · exact readable_incomingClause h.direction c hc
  · exact readable_outgoingClause h.direction c hc
  · exact readable_addressClause h.source c hc
  · exact readable_addressClause h.destination c hc

theorem readable_logClause (hm : IsPlain mark) :
    ∀ c ∈ (if r.log then [Clause.log mark] else []), c.Readable := by
  intro c hc
  by_cases hl : r.log = true
  · rw [if_pos hl] at hc
    obtain rfl := List.mem_singleton.1 hc
    exact hm
  · rw [if_neg hl] at hc
    cases hc

theorem readable_ruleLine (hm : IsPlain mark) (h : r.Sound) : (ruleLine mark r).Readable := by
  rw [ruleLine, List.append_assoc]
  exact readable_append (readable_conditions h)
    (readable_append (readable_logClause hm) (readable_verdictClauses h))

theorem readable_mappingLine {m : Mapping} (h : m.Sound) : (mappingLine m).Readable := by
  cases hd : m.direction with
  | destination =>
    simp only [mappingLine, hd]
    refine readable_append (fun c hc => ?_) (readable_pair rfl trivial)
    obtain ⟨i, hi, rfl⟩ : ∃ i, m.interface = some i ∧ Clause.incoming i = c := by simpa using hc
    exact (h i hi).isPlain
  | source =>
    simp only [mappingLine, hd]
    refine readable_append (fun c hc => ?_) (readable_pair rfl trivial)
    obtain ⟨i, hi, rfl⟩ : ∃ i, m.interface = some i ∧ Clause.outgoing i = c := by simpa using hc
    exact (h i hi).isPlain

theorem isPlain_of_subset {l : List String} (h : l ⊆ Clause.fixedNames) : ∀ w ∈ l, IsPlain w :=
  fun _ hw => Clause.isPlain_fixedName (h hw)

theorem readable_body (c : JumpChain) : ∀ l ∈ c.body, Line.Readable l := by
  obtain ⟨kind, action⟩ := c
  -- Every line is one condition and the action of the chain.
  have hpair : ∀ d : Clause, d.Readable → Line.Readable [d, .verdict action] :=
    fun d hd => readable_pair hd trivial
  cases kind with
  | icmp =>
    simp only [JumpChain.body, List.forall_mem_cons]
    exact ⟨hpair _ ⟨by simp, isPlain_of_subset (by decide)⟩, nofun⟩
  | icmp6 =>
    simp only [JumpChain.body, List.forall_mem_cons]
    exact ⟨hpair _ ⟨by simp, isPlain_of_subset (by decide)⟩, nofun⟩
  | dns =>
    have hport : PortEntry.Sound (.single 53) := ⟨by decide, by decide⟩
    simp only [JumpChain.body, List.forall_mem_cons]
    exact ⟨hpair _ ⟨by decide, hport⟩, hpair _ ⟨by decide, hport⟩, nofun⟩
  | vpn =>
    have hports : ∀ e ∈ [PortEntry.single 500, .single 4500], e.Sound := by
      simp only [List.forall_mem_cons]
      exact ⟨⟨by decide, by decide⟩, ⟨by decide, by decide⟩, nofun⟩
    simp only [JumpChain.body, List.forall_mem_cons]
    exact ⟨hpair _ ⟨by decide, by simp, hports⟩, hpair _ trivial, nofun⟩

theorem isName_of_targetCheck {t : Target} (h : t.check = .ok ()) :
    IsName t.namespaceName ∧ IsName t.table := by
  rw [Target.check] at h
  split at h
  · rename_i hn ht
    have hname := (isNameWithin_of_checkIdentifier hn).toIsName
    have htable := (isNameWithin_of_checkIdentifier ht).toIsName
    rw [eq_of_checkIdentifier hn] at hname
    rw [eq_of_checkIdentifier ht] at htable
    exact ⟨hname, htable⟩
  all_goals cases h

theorem isPlain_logMark {t : Target} (hn : IsName t.namespaceName) (ht : IsName t.table) :
    IsPlain t.logMark := by
  refine ⟨by simp [Target.logMark], fun c hc => ?_⟩
  have hfixed : "Namespace_".toList.all isPlain = true ∧ "_Table_".toList.all isPlain = true := by
    decide +kernel
  simp only [Target.logMark, String.toList_append, List.mem_append] at hc
  rcases hc with ((hc | hc) | hc) | hc
  · exact List.all_eq_true.1 hfixed.1 c hc
  · exact hn.isPlain.plain c hc
  · exact List.all_eq_true.1 hfixed.2 c hc
  · exact ht.isPlain.plain c hc

theorem isPlain_chainNames :
    (∀ h : Hook, IsPlain h.text) ∧ ∀ c : FilterChain, IsPlain c.text := by
  refine ⟨fun h => ?_, fun c => ?_⟩
  · cases h <;> exact Clause.isPlain_fixedName (by decide)
  · cases c <;> exact Clause.isPlain_fixedName (by decide)

theorem readable_mappingChain {hook : Hook} {t : Target} {d : MappingDirection} {ms : List Mapping}
    (h : ∀ m ∈ ms, m.Sound) : ∀ c ∈ mappingChain hook t (mappingLines d ms), c.Readable := by
  intro c hc
  rw [mappingChain] at hc
  split at hc
  · cases hc
  · obtain rfl := List.mem_singleton.1 hc
    refine ⟨isPlain_chainNames.1 hook, fun l hl => ?_⟩
    obtain ⟨m, hm, rfl⟩ := List.mem_map.1 hl
    exact readable_mappingLine (h m (List.mem_filter.1 hm).1)

theorem readable_filterChain {p : Ruleset} {t : Target} (hp : p.Sound) (hm : IsPlain t.logMark)
    (c : FilterChain) : (filterChain t p c).Readable := by
  refine ⟨isPlain_chainNames.2 c, fun l hl => ?_⟩
  obtain ⟨r, hr, rfl⟩ := List.mem_map.1 hl
  have hmem : r ∈ p.rules := (List.mem_filter.1 (List.mem_mergeSort.1 hr)).1
  exact readable_ruleLine hm (hp.rules r hmem)

theorem readable_tableOf {p : Ruleset} {t : Target} (hp : p.Sound) (hn : IsName t.namespaceName)
    (ht : IsName t.table) : (tableOf p t).Readable := by
  refine ⟨ht.isPlain, hp.sets, fun c hc => ?_⟩
  simp only [tableOf, List.mem_append] at hc
  rcases hc with ((hc | hc) | hc) | hc
  · obtain ⟨j, -, rfl⟩ := List.mem_map.1 hc
    exact ⟨Clause.isPlain_jumpName j, readable_body j⟩
  · exact readable_mappingChain hp.mappings c hc
  · obtain ⟨k, -, rfl⟩ := List.mem_map.1 hc
    exact readable_filterChain hp (isPlain_logMark hn ht) k
  · exact readable_mappingChain hp.mappings c hc

/-- What a document that was built is made of. -/
structure Built (s : Spec) (t : Target) (d : Document) (p : Ruleset) : Prop where
  checked : s.check = .ok p
  sound : p.Sound
  namespaceName : IsName t.namespaceName
  table : IsName t.table
  eq : d.table = tableOf p t

theorem built_of_build {s : Spec} {t : Target} {d : Document} (h : build s t = .ok d) :
    ∃ p, Built s t d p := by
  rw [build] at h
  split at h
  · cases h
  · rename_i p hp
    have h := mapError_eq_ok.1 h
    rw [assemble] at h
    split at h
    · cases h
    · rename_i ht
      obtain ⟨hn, htable⟩ := isName_of_targetCheck ht
      split at h
      · cases h
        exact ⟨p, hp, Spec.sound_of_check hp, hn, htable, rfl⟩
      · cases h

/-- Of a target nothing but its names can be wrong. -/
theorem exists_build_of_check {s : Spec} {t u : Target} {d : Document} (h : build s t = .ok d)
    (hu : u.check = .ok ()) : ∃ d', build s u = .ok d' := by
  rw [build] at h
  split at h
  · cases h
  · rename_i p hp
    have h := mapError_eq_ok.1 h
    rw [assemble] at h
    split at h
    · cases h
    · split at h
      · rename_i hdeclared
        refine ⟨⟨tableOf p u⟩, ?_⟩
        simp only [build, hp, assemble, hu, hdeclared, Except.mapError]
      · cases h

theorem Built.readable {s : Spec} {t : Target} {d : Document} {p : Ruleset} (h : Built s t d p) :
    d.table.Readable := by
  rw [h.eq]
  exact readable_tableOf h.sound h.namespaceName h.table

theorem Built.read?_text {s : Spec} {t : Target} {d : Document} {p : Ruleset}
    (h : Built s t d p) : Table.read? d.text = some (tableOf p t) := by
  rw [text, Table.read?_text h.readable, h.eq]

/-- Web ports from one interface, echo requests between two, and no packet from two networks. -/
def webSpec : Spec where
  rules :=
    [.record [("action", .string "accept"), ("version", .ofNat 4), ("protocol", .string "tcp"),
        ("source", .array [.string "any"]), ("destination", .array [.string "any"]),
        ("port", .array [.string "@web"]), ("iiface", .string "eth0"), ("order", .ofNat 20)],
      .record [("action", .string "drop"), ("version", .ofNat 6), ("protocol", .string "any"),
        ("source", .array [.string "2001:db8::/32", .string "::1"]),
        ("destination", .array [.string "any"]), ("iiface", .string "any"), ("log", .bool true),
        ("order", .ofNat 10)],
      .record [("action", .string "accept"), ("version", .ofNat 4), ("protocol", .string "icmp"),
        ("source", .array [.string "any"]), ("destination", .array [.string "10.0.0.0/8"]),
        ("iiface", .string "eth0"), ("oiface", .string "eth1")]]
  sets :=
    [.record [("name", .string "web"), ("type", .string "inet_service"),
      ("elements", .array [.ofNat 80, .string "8000-8080"])]]

def webTarget : Target := ⟨"shop", "edge", -5⟩

theorem exists_webDocument : ∃ d, build webSpec webTarget = .ok d := by
  have hsome : (build webSpec webTarget).toOption.isSome = true := by decide +kernel
  cases hd : build webSpec webTarget with
  | ok d => exact ⟨d, rfl⟩
  | error e =>
    rw [hd] at hsome
    cases hsome

end Document
end TwinWall
