import TwinWall.Proofs.Document.Outline
import TwinWall.Proofs.Document.Places

/-! Documents that refer to nothing outside of themselves. Every set in a line of a chain stands in the
same text, once and with the type that the line requires, and so does every chain that a line jumps to. -/
namespace TwinWall
namespace Document

open Net Policy Text

/-- The packet filter enters a chain by itself if the first row of it has a type. -/
def Section.IsEntered (s : Section) : Prop := ∃ ws, s.rows.head? = some ("type" :: ws)

/-- A list of blocks in which nothing is declared twice, and what a row of a chain refers to is declared
before that chain. -/
structure SelfContained (l : List Section) : Prop where
  sets_first : ∃ sets chains, l = sets ++ chains ∧ (∀ s ∈ sets, s.kind = "set") ∧
    ∀ c ∈ chains, c.kind = "chain"
  set_names : (namesOf "set" l).Nodup
  chain_names : (namesOf "chain" l).Nodup
  set_of_use : ∀ c ∈ l, c.kind = "chain" → ∀ row ∈ c.rows, ∀ pre w post, row = pre ++ w :: post →
    '@' ∈ w.toList → ∃ name head type, w = "@" ++ name ∧ head <:+ pre ∧
      requiredType? head = some type ∧ (namesOf "set" l).count name = 1 ∧
      ∃ rows, ⟨"set", name, ["type", type] :: rows⟩ ∈ l
  chain_of_jump : ∀ before c after, l = before ++ c :: after → c.kind = "chain" →
    ∀ row ∈ c.rows, ∀ name, ["jump", name] <:+: row →
      (namesOf "chain" l).count name = 1 ∧ name ∈ namesOf "chain" before
  jump_of_chain : ∀ d ∈ l, d.kind = "chain" → ¬ d.IsEntered →
    ∃ c ∈ l, c.kind = "chain" ∧ ∃ row ∈ c.rows, ["jump", d.name] <:+: row

variable {p : Ruleset} {r : Rule} {t : Target}

theorem mem_jumpChains_iff {rules : List Rule} {j : JumpChain} :
    j ∈ jumpChains rules ↔ ∃ r ∈ rules, jumpChain? r = some j := by
  simp [jumpChains, j.mem_all]

theorem resolved_addressClause {f : Family} {side : Side} {a : AddressMatch}
    (h : ∀ n, a.set? = some n → ∃ s ∈ p.sets, s.name = n ∧ s.type = .ofFamily f) :
    ∀ c ∈ addressClause f side a, c.Resolved p := by
  intro c hc
  cases a with
  | any => cases hc
  | set n =>
    obtain rfl := List.mem_singleton.1 hc
    exact h n rfl
  | list l =>
    obtain rfl := List.mem_singleton.1 hc
    trivial

theorem resolved_portClause {q : Transport} {m : PortMatch}
    (h : ∀ n, m.set? = some n → ∃ s ∈ p.sets, s.name = n ∧ s.type = .inetService) :
    (portClause q m).Resolved p := by
  cases m with
  | set n => exact h n rfl
  | list l => cases l <;> trivial

theorem resolved_verdictClauses (hr : r ∈ p.rules)
    (h : ∀ n, r.ports.set? = some n → ∃ s ∈ p.sets, s.name = n ∧ s.type = .inetService) :
    ∀ c ∈ verdictClauses r, c.Resolved p := by
  have hports : ∀ q, ∀ c ∈ [portClause q r.ports, .verdict r.action], c.Resolved p := by
    intro q
    simp only [List.forall_mem_cons]
    exact ⟨resolved_portClause h, trivial, nofun⟩
  cases hj : jumpChain? r with
  | some j =>
    rw [verdictClauses, hj]
    simp only [List.forall_mem_cons]
    exact ⟨mem_jumpChains_iff.2 ⟨r, hr, hj⟩, nofun⟩
  | none =>
    rw [verdictClauses, hj]
    simp only
    split
    · exact hports .tcp
    · exact hports .udp
    · simp only [List.forall_mem_cons]
      exact ⟨trivial, nofun⟩

/-- Whatever a rule of a checked policy refers to is in the policy. -/
theorem resolved_ruleLine (hp : p.Sound) (hr : r ∈ p.rules) (mark : String) :
    ∀ c ∈ ruleLine mark r, c.Resolved p := by
  have hdeclared := hp.declared r hr
  have hsource : ∀ n, r.source.set? = some n →
      ∃ s ∈ p.sets, s.name = n ∧ s.type = .ofFamily r.version :=
    fun n hn => hdeclared (n, .ofFamily r.version) (by simp [Rule.setUses, hn])
  have hdestination : ∀ n, r.destination.set? = some n →
      ∃ s ∈ p.sets, s.name = n ∧ s.type = .ofFamily r.version :=
    fun n hn => hdeclared (n, .ofFamily r.version) (by simp [Rule.setUses, hn])
  have hports : ∀ n, r.ports.set? = some n → ∃ s ∈ p.sets, s.name = n ∧ s.type = .inetService :=
    fun n hn => hdeclared (n, .inetService) (by simp [Rule.setUses, hn])
  intro c hc
  simp only [ruleLine, conditions, List.mem_append] at hc
  rcases hc with ((((hc | hc) | hc) | hc) | hc) | hc
  · obtain ⟨i, -, rfl⟩ := Option.map_eq_some_iff.1 (Option.mem_toList.1 hc)
    trivial
  · obtain ⟨o, -, rfl⟩ := Option.map_eq_some_iff.1 (Option.mem_toList.1 hc)
    trivial
  · exact resolved_addressClause hsource c hc
  · exact resolved_addressClause hdestination c hc
  · split at hc
    · obtain rfl := List.mem_singleton.1 hc
      trivial
    · cases hc
  · exact resolved_verdictClauses hr hports c hc

theorem resolved_mappingLine (m : Mapping) : ∀ c ∈ mappingLine m, c.Resolved p := by
  intro c hc
  cases hd : m.direction with
  | destination =>
    simp only [mappingLine, hd, List.mem_append, List.mem_cons, List.not_mem_nil, or_false] at hc
    rcases hc with hc | rfl | rfl
    · obtain ⟨i, -, rfl⟩ := Option.map_eq_some_iff.1 (Option.mem_toList.1 (by simpa using hc))
      trivial
    · trivial
    · trivial
  | source =>
    simp only [mappingLine, hd, List.mem_append, List.mem_cons, List.not_mem_nil, or_false] at hc
    rcases hc with hc | rfl | rfl
    · obtain ⟨i, -, rfl⟩ : ∃ i, m.interface = some i ∧ Clause.outgoing i = c := by simpa using hc
      trivial
    · trivial
    · trivial

/-- A chain of a table is one that is jumped to, or the packet filter enters it and its lines refer to
nothing that is not there. -/
theorem chain_cases (hp : p.Sound) {c : Chain} (hc : c ∈ (tableOf p t).chains) :
    (∃ j ∈ jumpChains p.rules, c = jumpChain j) ∨
      ((∃ e, c.entry = some e) ∧ ∀ l ∈ c.lines, ∀ d ∈ l, d.Resolved p) := by
  have hmapping : ∀ hook direction,
      c ∈ mappingChain hook t (mappingLines direction p.mappings) →
      (∃ e, c.entry = some e) ∧ ∀ l ∈ c.lines, ∀ d ∈ l, d.Resolved p := by
    intro hook direction hc
    rw [mappingChain] at hc
    split at hc
    · cases hc
    · obtain rfl := List.mem_singleton.1 hc
      refine ⟨⟨_, rfl⟩, fun l hl => ?_⟩
      obtain ⟨m, -, rfl⟩ := List.mem_map.1 hl
      exact resolved_mappingLine m
  simp only [tableOf, List.mem_append] at hc
  rcases hc with ((hc | hc) | hc) | hc
  · obtain ⟨j, hj, rfl⟩ := List.mem_map.1 hc
    exact Or.inl ⟨j, hj, rfl⟩
  · exact Or.inr (hmapping _ _ hc)
  · obtain ⟨k, -, rfl⟩ := List.mem_map.1 hc
    refine Or.inr ⟨⟨_, rfl⟩, fun l hl => ?_⟩
    obtain ⟨r, hr, rfl⟩ := List.mem_map.1 hl
    have hmem : r ∈ p.rules := (List.mem_filter.1 (List.mem_mergeSort.1 hr)).1
    exact resolved_ruleLine hp hmem t.logMark
  · exact Or.inr (hmapping _ _ hc)

theorem placed_tableOf (hp : p.Sound) (hread : (tableOf p t).Readable) {c : Chain}
    (hc : c ∈ (tableOf p t).chains) : ∀ row ∈ c.bodyRows, Placed p row := by
  rcases chain_cases hp hc with ⟨j, -, rfl⟩ | ⟨-, hlines⟩
  · exact fun row hrow => placed_of_ordinary (ordinary_jumpChain j row hrow)
  · exact Chain.placed_bodyRows (hread.chains c hc) hlines

/-- All names that the chains of a table may have, in their order. -/
theorem chainNames_sublist (p : Ruleset) (t : Target) :
    ((tableOf p t).chains.map (·.name)).Sublist
      (JumpChain.all.map JumpChain.name ++ [Hook.prerouting.text] ++
        FilterChain.all.map FilterChain.text ++ [Hook.postrouting.text]) := by
  have hmapping : ∀ hook lines, ((mappingChain hook t lines).map (·.name)).Sublist [hook.text] := by
    intro hook lines
    rw [mappingChain]
    split
    · exact List.nil_sublist _
    · exact List.Sublist.refl _
  simp only [tableOf, List.map_append, List.map_map]
  refine List.Sublist.append (List.Sublist.append (List.Sublist.append ?_ (hmapping _ _)) ?_)
    (hmapping _ _)
  · exact List.filter_sublist.map _
  · exact List.Sublist.refl _

theorem chainNames_nodup (p : Ruleset) (t : Target) : ((tableOf p t).chains.map (·.name)).Nodup := by
  have hall : (JumpChain.all.map JumpChain.name ++ [Hook.prerouting.text] ++
      FilterChain.all.map FilterChain.text ++ [Hook.postrouting.text]).Nodup := by decide
  exact hall.sublist (chainNames_sublist p t)

/-- What stands in front of an item that the first part has not begins with that part. -/
theorem prefix_of_notMem {α : Type} {a b pre post : List α} {x : α} (h : a ++ b = pre ++ x :: post)
    (hx : x ∉ a) : a <+: pre := by
  rcases List.append_eq_append_iff.1 h with ⟨c, rfl, -⟩ | ⟨c, rfl, hc⟩
  · exact List.prefix_append a c
  · cases c with
    | nil => simp
    | cons y c =>
      obtain ⟨rfl, -⟩ := List.cons.inj hc
      exact absurd (by simp) hx

theorem mem_namesOf {l : List Section} {s : Section} (h : s ∈ l) : s.name ∈ namesOf s.kind l :=
  List.mem_map_of_mem (List.mem_filter.2 ⟨h, by simp⟩)

theorem count_namesOf {l : List Section} {s : Section} (h : s ∈ l) (hnodup : (namesOf s.kind l).Nodup) :
    (namesOf s.kind l).count s.name = 1 := by
  rw [hnodup.count, if_pos (mem_namesOf h)]

theorem set_names_nodup (hp : p.Sound) : (namesOf "set" (tableOf p t).outline).Nodup := by
  rw [(namesOf_outline _).1]
  exact hp.distinct

theorem chain_names_nodup : (namesOf "chain" (tableOf p t).outline).Nodup := by
  rw [(namesOf_outline _).2]
  exact chainNames_nodup p t

theorem mem_chains_of_kind {u : Table} {s : Section} (h : s ∈ u.outline) (hkind : s.kind = "chain") :
    ∃ c ∈ u.chains, s = .ofChain c := by
  rcases List.mem_append.1 h with h | h
  · obtain ⟨n, -, rfl⟩ := List.mem_map.1 h
    exact absurd hkind (by simp)
  · obtain ⟨c, hc, rfl⟩ := List.mem_map.1 h
    exact ⟨c, hc, rfl⟩

theorem head_rows_ofSet {s : NamedSet} (h : s.Sound) :
    ∃ rows, Section.ofSet s = ⟨"set", s.name, ["type", s.type.text] :: rows⟩ :=
  ⟨_, by rw [Section.ofSet, rowsOf_setLines h]⟩

/-- A mark of a set stands before the name of a set that is declared once. -/
theorem declared_of_mark (hp : p.Sound) {pre post : List String} {w : String}
    (h : Place p pre w post) (hw : '@' ∈ w.toList) :
    ∃ name head type, w = "@" ++ name ∧ head <:+ pre ∧ requiredType? head = some type ∧
      (namesOf "set" (tableOf p t).outline).count name = 1 ∧
      ∃ rows, ⟨"set", name, ["type", type] :: rows⟩ ∈ (tableOf p t).outline := by
  obtain ⟨s, hs, rfl, head, hhead, htype⟩ := h.set_of_mark hw
  have hmem : Section.ofSet s ∈ (tableOf p t).outline :=
    List.mem_append_left _ (List.mem_map_of_mem hs)
  obtain ⟨rows, hrows⟩ := head_rows_ofSet (hp.sets s hs)
  refine ⟨s.name, head, s.type.text, rfl, hhead, htype, ?_, rows, ?_⟩
  · exact count_namesOf hmem (set_names_nodup hp)
  · rwa [← hrows]

/-- The blocks of a table that no line jumps from. -/
def leaves (p : Ruleset) : List Section :=
  p.sets.map Section.ofSet ++ (jumpChains p.rules).map fun j => Section.ofChain (jumpChain j)

theorem leaves_prefix (p : Ruleset) (t : Target) : leaves p <+: (tableOf p t).outline := by
  simp only [leaves, Table.outline, tableOf, List.map_append, List.map_map, List.append_assoc]
  exact List.prefix_append_right_inj _ |>.2 (List.prefix_append _ _)

theorem notMem_leaves {c : Chain} {row : List String} (hrow : row ∈ c.bodyRows)
    (hjump : "jump" ∈ row) : Section.ofChain c ∉ leaves p := by
  intro hmem
  rcases List.mem_append.1 hmem with hmem | hmem
  · obtain ⟨s, -, hs⟩ := List.mem_map.1 hmem
    exact absurd (congrArg Section.kind hs) (by simp)
  · obtain ⟨j, -, hj⟩ := List.mem_map.1 hmem
    have hbody : (jumpChain j).bodyRows = c.bodyRows := congrArg Section.rows hj
    rw [← hbody] at hrow
    exact (ordinary_jumpChain j row hrow "jump" hjump).ne_jump rfl

theorem declared_of_jump (hp : p.Sound) (hread : (tableOf p t).Readable) {before after : List Section}
    {s : Section} (hcut : (tableOf p t).outline = before ++ s :: after) (hkind : s.kind = "chain")
    {row : List String} (hrow : row ∈ s.rows) {name : String} (hjump : ["jump", name] <:+: row) :
    (namesOf "chain" (tableOf p t).outline).count name = 1 ∧ name ∈ namesOf "chain" before := by
  have hs : s ∈ (tableOf p t).outline := by simp [hcut]
  obtain ⟨c, hc, rfl⟩ := mem_chains_of_kind hs hkind
  obtain ⟨pre, post, hwords⟩ := hjump
  have hplace : Place p pre "jump" (name :: post) :=
    placed_tableOf hp hread hc row hrow pre "jump" (name :: post) (by simp [← hwords])
  obtain ⟨j, hj, rest, hrest⟩ := hplace.chain_of_jump rfl
  obtain ⟨rfl, -⟩ := List.cons.inj hrest
  -- The chain that is jumped to is among the blocks before all lines with jumps.
  obtain ⟨tail, htail⟩ := leaves_prefix p t
  have hearly : leaves p <+: before :=
    prefix_of_notMem (htail.trans hcut) (notMem_leaves hrow (by simp [← hwords]))
  have hleaf : Section.ofChain (jumpChain j) ∈ leaves p :=
    List.mem_append_right _ (List.mem_map_of_mem hj)
  have hbefore := hearly.subset hleaf
  have hmem : Section.ofChain (jumpChain j) ∈ (tableOf p t).outline := by simp [hcut, hbefore]
  exact ⟨count_namesOf hmem chain_names_nodup, mem_namesOf hbefore⟩

/-- A chain that the packet filter does not enter is jumped to from the chain of some rule. -/
theorem exists_jump {s : Section} (hp : p.Sound) (hread : (tableOf p t).Readable)
    (hs : s ∈ (tableOf p t).outline) (hkind : s.kind = "chain") (hentered : ¬ s.IsEntered) :
    ∃ c ∈ (tableOf p t).outline, c.kind = "chain" ∧ ∃ row ∈ c.rows, ["jump", s.name] <:+: row := by
  obtain ⟨d, hd, rfl⟩ := mem_chains_of_kind hs hkind
  rcases chain_cases hp hd with ⟨j, hj, rfl⟩ | ⟨⟨e, he⟩, -⟩
  · obtain ⟨r, hr, hjump⟩ := mem_jumpChains_iff.1 hj
    have hchain : filterChain t p r.chain ∈ (tableOf p t).chains := by
      have hall : r.chain ∈ FilterChain.all := by cases r.chain <;> decide
      simp only [tableOf, List.mem_append]
      exact Or.inl (Or.inr (List.mem_map_of_mem hall))
    have hline : ruleLine t.logMark r ∈ (filterChain t p r.chain).lines :=
      List.mem_map_of_mem (List.mem_mergeSort.2 (by simpa using hr))
    have hwords : words (ruleLine t.logMark r).text.toList =
        (conditions r ++ if r.log then [Clause.log t.logMark] else []).flatMap
          (fun c => c.tokens.flatMap Token.words) ++ ["jump", j.name] := by
      rw [Line.words_text ((hread.chains _ hchain).lines _ hline), Line.tokens, List.flatMap_assoc,
        ruleLine, verdictClauses, hjump, List.flatMap_append]
      rfl
    refine ⟨.ofChain (filterChain t p r.chain),
      List.mem_append_right _ (List.mem_map_of_mem hchain), rfl, _,
      List.mem_append_right _ (List.mem_map_of_mem hline), ?_⟩
    rw [hwords]
    exact (List.suffix_append _ _).isInfix
  · refine absurd ⟨e.words.tail, ?_⟩ hentered
    rw [Section.rows_ofChain, Chain.bodyRows, he]
    rfl

theorem selfContained_outline (hp : p.Sound) (hread : (tableOf p t).Readable) :
    SelfContained (tableOf p t).outline where
  sets_first := by
    refine ⟨_, _, rfl, fun s hs => ?_, fun c hc => ?_⟩
    · obtain ⟨n, -, rfl⟩ := List.mem_map.1 hs
      rfl
    · obtain ⟨n, -, rfl⟩ := List.mem_map.1 hc
      rfl
  set_names := set_names_nodup hp
  chain_names := chain_names_nodup
  set_of_use := by
    intro c hc hkind row hrow pre w post hword hmark
    obtain ⟨d, hd, rfl⟩ := mem_chains_of_kind hc hkind
    exact declared_of_mark hp (placed_tableOf hp hread hd row hrow pre w post hword) hmark
  chain_of_jump := by
    intro before c after hcut hkind row hrow name hjump
    exact declared_of_jump hp hread hcut hkind hrow hjump
  jump_of_chain := by
    intro d hd hkind hentered
    exact exists_jump hp hread hd hkind hentered

theorem mem_names_mappingChain {hook : Hook} {direction : MappingDirection} {ms : List Mapping}
    {name : String} : name ∈ (mappingChain hook t (mappingLines direction ms)).map (·.name) ↔
      name = hook.text ∧ ∃ m ∈ ms, m.direction = direction := by
  rw [mappingChain]
  split
  · rename_i hnil
    have hnone : ∀ m ∈ ms, m.direction ≠ direction := by simpa [mappingLines] using hnil
    simpa using fun _ => hnone
  · rename_i hnil
    have hsome : ∃ m ∈ ms, m.direction = direction := by simpa [mappingLines] using hnil
    simp [hsome]

/-- The chains for mappings are there if there are mappings for them; no other chain has their names. -/
theorem mem_chainNames {name : String} (h : name ∈ [Hook.prerouting.text, Hook.postrouting.text]) :
    name ∈ namesOf "chain" (tableOf p t).outline ↔
      name = Hook.prerouting.text ∧ (∃ m ∈ p.mappings, m.direction = .destination) ∨
      name = Hook.postrouting.text ∧ ∃ m ∈ p.mappings, m.direction = .source := by
  have hall : ∀ n ∈ [Hook.prerouting.text, Hook.postrouting.text],
      (∀ j ∈ JumpChain.all, j.name ≠ n) ∧ ∀ c ∈ FilterChain.all, c.text ≠ n := by decide
  have hjump : name ∉ ((jumpChains p.rules).map jumpChain).map (·.name) := by
    simpa [jumpChain] using fun j _ => (hall name h).1 j j.mem_all
  have hfilter : name ∉ (FilterChain.all.map (filterChain t p)).map (·.name) := by
    simpa [filterChain] using (hall name h).2
  rw [(namesOf_outline _).2]
  simp only [tableOf, List.map_append, List.mem_append, mem_names_mappingChain]
  simp only [hjump, hfilter, false_or, or_false]

/-- The text of a document that was built has one outline, which is closed. -/
theorem selfContained_of_build {s : Spec} {t : Target} {d : Document} (h : build s t = .ok d) :
    ∃ l p, (∀ table m, Outline d.text table m ↔ table = t.table ∧ m = l) ∧ SelfContained l ∧
      s.check = .ok p ∧
      ("prerouting" ∈ namesOf "chain" l ↔ ∃ m ∈ p.mappings, m.direction = .destination) ∧
      ("postrouting" ∈ namesOf "chain" l ↔ ∃ m ∈ p.mappings, m.direction = .source) := by
  obtain ⟨p, hbuilt⟩ := built_of_build h
  have hread : (tableOf p t).Readable := hbuilt.eq ▸ hbuilt.readable
  have houtline : Outline d.text t.table (tableOf p t).outline := by
    rw [text, hbuilt.eq]
    exact Table.outline_text hread
  refine ⟨(tableOf p t).outline, p, fun table m => ⟨fun hm => hm.unique houtline, ?_⟩,
    selfContained_outline hbuilt.sound hread, hbuilt.checked, ?_, ?_⟩
  · rintro ⟨rfl, rfl⟩
    exact houtline
  · rw [mem_chainNames (by decide)]
    simp [Hook.text]
  · rw [mem_chainNames (by decide)]
    simp [Hook.text]

theorem selfContained_of_build_web : ∃ d l, build webSpec webTarget = .ok d ∧
    Outline d.text "edge" l ∧ SelfContained l ∧ "prerouting" ∉ namesOf "chain" l := by
  obtain ⟨d, hd⟩ := exists_webDocument
  obtain ⟨l, p, houtline, hclosed, hp, hpre, -⟩ := selfContained_of_build hd
  have hmappings : p.mappings = [] := by
    have hnone : webSpec.check.toOption.map (·.mappings) = some [] := by decide +kernel
    rw [hp] at hnone
    exact Option.some.inj hnone
  refine ⟨d, l, hd, (houtline "edge" l).2 ⟨rfl, rfl⟩, hclosed, fun hname => ?_⟩
  obtain ⟨m, hm, -⟩ := hpre.1 hname
  rw [hmappings] at hm
  cases hm

end Document
end TwinWall
