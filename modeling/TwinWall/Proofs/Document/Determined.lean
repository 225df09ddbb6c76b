import TwinWall.Proofs.Document.Closed

/-! What the text of a document tells of its policy. Two policies give one target the same text just if they
agree in their sets, their default verdicts, their mappings in each direction and the lines of each chain. -/
namespace TwinWall
namespace Document

open Net Policy

/-- Policies that differ at most in what no table shows. -/
structure Alike (mark : String) (p q : Ruleset) : Prop where
  sets : p.sets = q.sets
  defaults : p.defaults = q.defaults
  mappings : ∀ d : MappingDirection,
    p.mappings.filter (·.direction = d) = q.mappings.filter (·.direction = d)
  lines : ∀ c, chainLines mark c p.rules = chainLines mark c q.rules

variable {p q : Ruleset} {t : Target}

/-- The chains that the packet filter enters at a hook. -/
def Table.enteredAt (u : Table) (hook : Hook) : List Chain :=
  u.chains.filter fun c => c.entry.map Entry.hook = some hook

theorem filter_jumpChains (hook : Hook) :
    ((jumpChains p.rules).map jumpChain).filter (fun c => c.entry.map Entry.hook = some hook) = [] := by
  refine List.filter_eq_nil_iff.2 fun c hc => ?_
  obtain ⟨j, -, rfl⟩ := List.mem_map.1 hc
  simp [jumpChain]

theorem filter_mappingChain (hook other : Hook) (ls : List Line) :
    (mappingChain other t ls).filter (fun c => c.entry.map Entry.hook = some hook) =
      if other = hook then mappingChain other t ls else [] := by
  rw [mappingChain]
  by_cases hls : ls.isEmpty = true
  · simp [hls]
  · by_cases hhook : other = hook <;> simp [hls, hhook]

theorem enteredAt_ofChain (p : Ruleset) (t : Target) (c : FilterChain) :
    (tableOf p t).enteredAt (Hook.ofChain c) = [filterChain t p c] := by
  simp only [Table.enteredAt, tableOf, List.filter_append, filter_jumpChains, filter_mappingChain]
  cases c <;> simp [Hook.ofChain, FilterChain.all, filterChain]

theorem enteredAt_prerouting (p : Ruleset) (t : Target) : (tableOf p t).enteredAt .prerouting =
    mappingChain .prerouting t (mappingLines .destination p.mappings) := by
  simp only [Table.enteredAt, tableOf, List.filter_append, filter_jumpChains, filter_mappingChain]
  simp [Hook.ofChain, FilterChain.all, filterChain]

theorem enteredAt_postrouting (p : Ruleset) (t : Target) : (tableOf p t).enteredAt .postrouting =
    mappingChain .postrouting t (mappingLines .source p.mappings) := by
  simp only [Table.enteredAt, tableOf, List.filter_append, filter_jumpChains, filter_mappingChain]
  simp [Hook.ofChain, FilterChain.all, filterChain]

theorem lines_mappingChain (hook : Hook) (t : Target) (ls : List Line) :
    (mappingChain hook t ls).flatMap Chain.lines = ls := by
  rw [mappingChain]
  split
  · rename_i hls
    simpa using hls
  · simp

/-- The mapping that a line was made from. -/
def mappingOf? : Line → Option Mapping
  | [.incoming i, .address _ _ (.one (.v4 outside)), .destinationTo inside] =>
    some ⟨.destination, outside, inside, some i⟩
  | [.address _ _ (.one (.v4 outside)), .destinationTo inside] =>
    some ⟨.destination, outside, inside, none⟩
  | [.outgoing o, .address _ _ (.one (.v4 inside)), .sourceTo outside] =>
    some ⟨.source, outside, inside, some o⟩
  | [.address _ _ (.one (.v4 inside)), .sourceTo outside] => some ⟨.source, outside, inside, none⟩
  | _ => none

theorem mappingOf?_mappingLine (m : Mapping) : mappingOf? (mappingLine m) = some m := by
  obtain ⟨d, outside, inside, interface⟩ := m
  cases d <;> cases interface <;> rfl

theorem mappingLine_injective : Function.Injective mappingLine := by
  intro m n h
  have hread := mappingOf?_mappingLine m
  rw [h, mappingOf?_mappingLine] at hread
  exact (Option.some.inj hread).symm

theorem filter_eq_of_mappingLines {d : MappingDirection} {ms ns : List Mapping}
    (h : mappingLines d ms = mappingLines d ns) :
    ms.filter (·.direction = d) = ns.filter (·.direction = d) :=
  List.map_injective_iff.2 mappingLine_injective h

theorem defaults_eq {d e : Defaults} (h : ∀ c, d.get c = e.get c) : d = e := by
  obtain ⟨i, f, o⟩ := d
  obtain ⟨i', f', o'⟩ := e
  have hinput : i = i' := h .input
  have hforward : f = f' := h .forward
  have houtput : o = o' := h .output
  rw [hinput, hforward, houtput]

theorem alike_of_tableOf_eq (h : tableOf p t = tableOf q t) : Alike t.logMark p q := by
  have hfilter : ∀ c, filterChain t p c = filterChain t q c := by
    intro c
    have hentered := enteredAt_ofChain p t c
    rw [h, enteredAt_ofChain] at hentered
    exact (List.singleton_inj.1 hentered).symm
  have hmapping : ∀ d, mappingLines d p.mappings = mappingLines d q.mappings := by
    intro d
    cases d with
    | destination =>
      have hentered := enteredAt_prerouting p t
      rw [h, enteredAt_prerouting] at hentered
      rw [← lines_mappingChain .prerouting t (mappingLines .destination p.mappings), ← hentered,
        lines_mappingChain]
    | source =>
      have hentered := enteredAt_postrouting p t
      rw [h, enteredAt_postrouting] at hentered
      rw [← lines_mappingChain .postrouting t (mappingLines .source p.mappings), ← hentered,
        lines_mappingChain]
  exact {
    sets := congrArg Table.sets h
    defaults := defaults_eq fun c => by
      simpa [filterChain] using congrArg (fun d => d.entry.map Entry.policy) (hfilter c)
    mappings := fun d => filter_eq_of_mappingLines (hmapping d)
    lines := fun c => congrArg Chain.lines (hfilter c) }

/-- A line shows which chain its rule jumps to. -/
theorem jump_mem_ruleLine {mark : String} {r : Rule} {j : JumpChain} :
    .jump j ∈ ruleLine mark r ↔ jumpChain? r = some j := by
  have hconditions : ∀ c ∈ conditions r ++ (if r.log then [.log mark] else []), c ≠ .jump j := by
    rintro c hc rfl
    simp only [conditions, incomingClause, outgoingClause, List.mem_append, Option.mem_toList,
      Option.map_eq_some_iff, reduceCtorEq, and_false, exists_false, false_or] at hc
    rcases hc with (hc | hc) | hc
    · cases hsource : r.source <;> simp [hsource, addressClause] at hc
    · cases hdestination : r.destination <;> simp [hdestination, addressClause] at hc
    · by_cases hlog : r.log = true <;> simp [hlog] at hc
  have hports : ∀ q, portClause q r.ports ≠ .jump j := by
    intro q
    rcases r.ports with n | _ | ⟨e, l⟩ <;> rintro ⟨⟩
  have hverdict : .jump j ∈ verdictClauses r ↔ jumpChain? r = some j := by
    cases hj : jumpChain? r with
    | some i => simp [verdictClauses, hj, eq_comm]
    | none =>
      simp only [verdictClauses, hj, reduceCtorEq, iff_false]
      split <;> simp [(hports _).symm]
  rw [ruleLine, List.mem_append, hverdict]
  exact ⟨fun h => h.resolve_left fun hmem => hconditions _ hmem rfl, Or.inr⟩

theorem mem_jumpChains_iff_lines (mark : String) (rules : List Rule) (j : JumpChain) :
    j ∈ jumpChains rules ↔ ∃ c, ∃ l ∈ chainLines mark c rules, .jump j ∈ l := by
  rw [mem_jumpChains_iff]
  constructor
  · rintro ⟨r, hr, hj⟩
    refine ⟨r.chain, ruleLine mark r, List.mem_map_of_mem ?_, jump_mem_ruleLine.2 hj⟩
    exact List.mem_mergeSort.2 (List.mem_filter.2 ⟨hr, by simp⟩)
  · rintro ⟨c, l, hl, hj⟩
    obtain ⟨r, hr, rfl⟩ := List.mem_map.1 hl
    exact ⟨r, (List.mem_filter.1 (List.mem_mergeSort.1 hr)).1, jump_mem_ruleLine.1 hj⟩

theorem jumpChains_eq {mark : String} {rules others : List Rule}
    (h : ∀ c, chainLines mark c rules = chainLines mark c others) :
    jumpChains rules = jumpChains others := by
  refine List.filter_congr fun j _ => Bool.eq_iff_iff.2 ?_
  have hmem := mem_jumpChains_iff_lines mark rules j
  simp only [h] at hmem
  rw [← mem_jumpChains_iff_lines] at hmem
  simpa [jumpChains, j.mem_all] using hmem

theorem tableOf_eq_of_alike (h : Alike t.logMark p q) : tableOf p t = tableOf q t := by
  have hfilter : ∀ c, filterChain t p c = filterChain t q c := by
    intro c
    rw [filterChain, filterChain, h.defaults, h.lines]
  have hmapping : ∀ d, mappingLines d p.mappings = mappingLines d q.mappings := by
    intro d
    rw [mappingLines, h.mappings, mappingLines]
  rw [tableOf, tableOf, h.sets, jumpChains_eq h.lines, hmapping, hmapping, funext hfilter]

theorem readable_of_assemble {s : Spec} {d : Document} (hp : s.check = .ok p)
    (h : assemble p t = .ok d) : d.table.Readable ∧ d.table = tableOf p t := by
  have hbuild : build s t = .ok d := by
    simp only [build, hp, h, Except.mapError]
  obtain ⟨p', hbuilt⟩ := built_of_build hbuild
  obtain rfl : p = p' := Except.ok.inj (hp.symm.trans hbuilt.checked)
  exact ⟨hbuilt.readable, hbuilt.eq⟩

/-- The same text for a target comes of policies that are alike, and only of these. -/
theorem text_eq_iff_alike {s u : Spec} {d e : Document} (hp : s.check = .ok p) (hq : u.check = .ok q)
    (hd : assemble p t = .ok d) (he : assemble q t = .ok e) :
    d.text = e.text ↔ Alike t.logMark p q := by
  obtain ⟨hreadd, htabled⟩ := readable_of_assemble hp hd
  obtain ⟨hreade, htablee⟩ := readable_of_assemble hq he
  constructor
  · intro htext
    have hread := Table.read?_text hreadd
    rw [show d.table.text = e.table.text from htext, Table.read?_text hreade] at hread
    rw [Option.some.injEq, htabled, htablee] at hread
    exact alike_of_tableOf_eq hread.symm
  · intro halike
    rw [text, text, htabled, htablee, tableOf_eq_of_alike halike]

/-- The same policy with its last rule in front, which is of a chain of its own. -/
def movedSpec : Spec := { webSpec with rules := webSpec.rules.rotate 2 }

theorem alike_moved : Alike webTarget.logMark webSpec.soundPart movedSpec.soundPart := by
  have hrules : ∀ c ∈ FilterChain.all, (webSpec.soundPart.rules.filter fun r => r.chain = c) =
      movedSpec.soundPart.rules.filter fun r => r.chain = c := by
    decide +kernel
  have hmappings (d : MappingDirection) : webSpec.soundPart.mappings.filter (·.direction = d) =
      movedSpec.soundPart.mappings.filter (·.direction = d) := by
    cases d <;> decide +kernel
  refine ⟨by decide +kernel, by decide +kernel, hmappings, fun c => ?_⟩
  rw [chainLines, chainLines, rulesOf, rulesOf, hrules c (by cases c <;> decide)]

theorem text_eq_iff_alike_moved : webSpec.check = .ok webSpec.soundPart ∧
    movedSpec.check = .ok movedSpec.soundPart ∧ webSpec.soundPart ≠ movedSpec.soundPart ∧
    ∃ d e, assemble webSpec.soundPart webTarget = .ok d ∧
      assemble movedSpec.soundPart webTarget = .ok e ∧ d.text = e.text := by
  have hweb : webSpec.check = .ok webSpec.soundPart := by rfl
  have hmoved : movedSpec.check = .ok movedSpec.soundPart := by rfl
  have hd : assemble webSpec.soundPart webTarget = .ok ⟨tableOf webSpec.soundPart webTarget⟩ := by rfl
  have he : assemble movedSpec.soundPart webTarget =
      .ok ⟨tableOf movedSpec.soundPart webTarget⟩ := by rfl
  exact ⟨hweb, hmoved, by decide +kernel, _, _, hd, he,
    (text_eq_iff_alike hweb hmoved hd he).2 alike_moved⟩

end Document
end TwinWall
