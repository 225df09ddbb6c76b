import Mathlib.Data.List.Nodup
import TwinWall.Proofs.Document.Built
import TwinWall.Proofs.Document.Sorted
import TwinWall.Proofs.Filter.Packet

/-! Whatever a document was built from, its text gives every packet the verdict of the policy. The rules of
a chain are sorted by order, so its first line that decides is that of the deciding rule. -/
namespace TwinWall
namespace Filter

open Net Policy Document

variable {p : Ruleset} {t : Target} {k : Packet}

/-- In a list sorted by a key, the first that has a property is the least of those that have it. -/
theorem find?_mergeSort {α : Type} (key : α → Int) (q : α → Bool) (l : List α) :
    (l.mergeSort fun a b => key a ≤ key b).find? q = least? key (l.filter q) := by
  induction l with
  | nil => simp [least?]
  | cons a l ih =>
    -- Sorting puts the new head in front of everything that is not less than it.
    obtain ⟨l₁, l₂, hsorted, hrest, hless⟩ := List.mergeSort_cons (key_trans key) (key_total key) a l
    have hpair := pairwise_sorted key (a :: l)
    rw [hsorted] at hpair ⊢
    rw [hrest] at ih
    by_cases ha : q a = true
    · rw [List.filter_cons_of_pos ha, least?, ← ih]
      cases h₁ : l₁.find? q with
      | some c =>
        have hc := List.mem_of_find?_eq_some h₁
        have hlt : key c < key a := by simpa using hless c hc
        simp [List.find?_append, h₁, hlt]
      | none =>
        cases h₂ : l₂.find? q with
        | none => simp [List.find?_append, h₁, h₂, ha]
        | some c =>
          have hc := List.mem_of_find?_eq_some h₂
          have hle : key a ≤ key c := by
            have htail := (List.pairwise_append.1 hpair).2.1
            exact (List.pairwise_cons.1 htail).1 c hc
          have hnot : ¬ key c < key a := by omega
          simp [List.find?_append, h₁, h₂, ha, hnot]
    · rw [List.filter_cons_of_neg ha, ← ih]
      simp [List.find?_append, ha]

/-- The element that alone has a property is found by it. -/
theorem find?_of_unique {α : Type} {q : α → Bool} {l : List α} {x : α} (hx : x ∈ l)
    (hq : q x = true) (h : ∀ y ∈ l, q y = true → y = x) : l.find? q = some x := by
  cases hf : l.find? q with
  | none => exact absurd hq (List.find?_eq_none.1 hf x hx)
  | some y => rw [h y (List.mem_of_find?_eq_some hf) (List.find?_some hf)]

/-- Whether a policy has a set of a name, with a type. -/
def HasSet (p : Ruleset) (n : String) (u : SetType) : Prop :=
  ∃ d, p.set? n = some d ∧ d.type = u ∧ d.Sound

/-- Whether a policy has each set that a rule uses, with the type that the use requires. -/
def Resolves (p : Ruleset) (r : Rule) : Prop := ∀ u ∈ r.setUses, HasSet p u.1 u.2

/-- In a checked policy a set in use is declared once, and with the type that the use requires. -/
theorem resolves_of_sound (hp : p.Sound) {r : Rule} (hr : r ∈ p.rules) : Resolves p r := by
  rintro ⟨n, u⟩ hu
  obtain ⟨d, hd, hname, htype⟩ := hp.declared r hr (n, u) hu
  refine ⟨d, ?_, htype, hp.sets d hd⟩
  refine find?_of_unique hd (by simpa using hname) fun e he hen => ?_
  have hsame : e.name = d.name := by
    rw [hname]
    simpa using hen
  exact List.inj_on_of_nodup_map hp.distinct he hd hsame

theorem set?_tableOf (n : String) : set? (tableOf p t) n = p.set? n := rfl

/-- A set of networks of one family covers addresses of that family only. -/
theorem family_of_coversAddress {d : NamedSet} {f : Family} {h : Header} {s : Side} (hd : d.Sound)
    (ht : d.type = SetType.ofFamily f) (hc : d.elements.any (coversAddress h s) = true) :
    h.family = f := by
  obtain ⟨e, he, hc⟩ := List.any_eq_true.1 hc
  have htype := hd.elements e he
  rw [ht] at htype
  cases e with
  | network n =>
    have hfamily : n.family = f := by cases f <;> exact htype
    rw [Header.family_of_lies hc, hfamily]
  | port q => cases hc
  | mac w => cases hc

/-- Conditions that come to a value: a line goes on behind them if it is true, and decides nothing
otherwise. -/
def ComeTo (tab : Table) (k : Packet) (cs : Line) (b : Bool) : Prop :=
  ∀ called rest, lineVerdict? tab k called (cs ++ rest) =
    if b then lineVerdict? tab k called rest else some none

namespace ComeTo

variable {tab : Table} {cs ds : Line} {b c : Bool}

theorem nil : ComeTo tab k [] true := fun _ _ => rfl

theorem of_holds? {d : Clause} (h : holds? tab k d = some b) : ComeTo tab k [d] b := by
  intro called rest
  cases d with
  | verdict a => cases h
  | jump j => cases h
  | _ =>
    rw [List.singleton_append, lineVerdict?, h]
    · rfl
    · nofun
    · nofun

theorem append (hc : ComeTo tab k cs b) (hd : ComeTo tab k ds c) : ComeTo tab k (cs ++ ds) (b && c) := by
  intro called rest
  rw [List.append_assoc, hc, hd]
  cases b <;> rfl

end ComeTo

section Conditions

theorem comeTo_incoming (tab : Table) (d : Direction) :
    ComeTo tab k (incomingClause d) (d.incoming?.all (interfaceAdmits k.incoming)) := by
  cases hd : d.incoming? with
  | none => simpa [incomingClause, hd] using ComeTo.nil
  | some i =>
    cases i with
    | any => simpa [incomingClause, hd, Interface.name?, interfaceAdmits] using ComeTo.nil
    | named n =>
      simp only [incomingClause, hd, Option.all_some, interfaceAdmits]
      exact ComeTo.of_holds? rfl

theorem comeTo_outgoing (tab : Table) (d : Direction) :
    ComeTo tab k (outgoingClause d) (d.outgoing?.all (interfaceAdmits k.outgoing)) := by
  cases hd : d.outgoing? with
  | none => simpa [outgoingClause, hd] using ComeTo.nil
  | some i =>
    cases i with
    | any => simpa [outgoingClause, hd, Interface.name?, interfaceAdmits] using ComeTo.nil
    | named n =>
      simp only [outgoingClause, hd, Option.all_some, interfaceAdmits]
      exact ComeTo.of_holds? rfl

theorem directionAdmits_eq (d : Direction) :
    directionAdmits k d = (d.incoming?.all (interfaceAdmits k.incoming) &&
      d.outgoing?.all (interfaceAdmits k.outgoing)) := by
  cases d <;> simp [directionAdmits, Direction.incoming?, Direction.outgoing?]

/-- The clause of a side holds just if the rule takes the address on that side. -/
theorem comeTo_address {f : Family} {s : Side} {a : AddressMatch} (ha : a.Sound f)
    (hset : ∀ n, a = .set n → HasSet p n (SetType.ofFamily f)) :
    ComeTo (tableOf p t) k (addressClause f s a) (addressAdmits p k s a) := by
  cases a with
  | any => exact ComeTo.nil
  | set n =>
    obtain ⟨d, hd, htype, hsound⟩ := hset n rfl
    refine ComeTo.of_holds? ?_
    have hfamily := family_of_coversAddress (h := k.header) (s := s) hsound htype
    have hfits : d.type = addressType f := htype.trans (by cases f <;> rfl)
    simp only [holds?, addressIn?, set?_tableOf, hd, Option.bind_eq_bind, Option.bind_some, hfits,
      if_true, Option.map_some, addressAdmits, Option.any_some]
    cases hc : d.elements.any (coversAddress k.header s) with
    | false => simp
    | true => simp [hfamily hc]
  | list l =>
    refine ComeTo.of_holds? ?_
    simp only [holds?, addressIn?, Option.map_some, addressAdmits]
    cases hc : l.any (k.header.lies s) with
    | false => simp
    | true =>
      obtain ⟨n, hn, hlies⟩ := List.any_eq_true.1 hc
      have hfamily : k.header.family = f := by rw [Header.family_of_lies hlies, ha.2 n hn]
      simp [hfamily]

theorem Resolves.address {r : Rule} (hs : Resolves p r) {a : AddressMatch}
    (ha : a = r.source ∨ a = r.destination) (n : String) (hn : a = .set n) :
    HasSet p n (SetType.ofFamily r.version) := by
  refine hs (n, SetType.ofFamily r.version) ?_
  rcases ha with rfl | rfl <;> simp [Rule.setUses, hn, AddressMatch.set?]

theorem Resolves.ports {r : Rule} (hs : Resolves p r) (n : String) (hn : r.ports = .set n) :
    HasSet p n .inetService :=
  hs (n, .inetService) (by simp [Rule.setUses, hn, PortMatch.set?])

theorem comeTo_conditions {r : Rule} (hrule : r.Sound) (hs : Resolves p r) :
    ComeTo (tableOf p t) k (conditions r)
      (directionAdmits k r.direction && addressAdmits p k .source r.source &&
        addressAdmits p k .destination r.destination) := by
  have hsource := comeTo_address (t := t) (k := k) (s := .source) hrule.source
    (hs.address (Or.inl rfl))
  have hdestination := comeTo_address (t := t) (k := k) (s := .destination) hrule.destination
    (hs.address (Or.inr rfl))
  rw [directionAdmits_eq]
  exact (((comeTo_incoming _ _).append (comeTo_outgoing _ _)).append hsource).append hdestination

theorem comeTo_log (tab : Table) (mark : String) (log : Bool) :
    ComeTo tab k (if log then [.log mark] else []) true := by
  cases log with
  | false => exact ComeTo.nil
  | true => exact ComeTo.of_holds? rfl

/-- The ports of a transport that has ports. -/
theorem comeTo_port {q : Transport} (hq : q ≠ .esp) {m : PortMatch}
    (hset : ∀ n, m = .set n → HasSet p n .inetService) :
    ComeTo (tableOf p t) k [portClause q m] ((k.payload.port? q).any fun n => portAdmits p n m) := by
  cases m with
  | set name =>
    obtain ⟨d, hd, htype, -⟩ := hset name rfl
    refine ComeTo.of_holds? ?_
    cases hn : k.payload.port? q with
    | none => simp [portClause, holds?, hn]
    | some n => simp [portClause, holds?, hn, portIn?, set?_tableOf, hd, htype, portAdmits]
  | list l =>
    cases l with
    | nil =>
      have hcarries : k.payload.carries q = (k.payload.port? q).isSome := by
        cases q with
        | esp => exact absurd rfl hq
        | tcp => cases k.payload <;> rfl
        | udp => cases k.payload <;> rfl
      refine ComeTo.of_holds? ?_
      rw [portClause, holds?, hcarries]
      cases k.payload.port? q <;> rfl
    | cons e l =>
      refine ComeTo.of_holds? ?_
      cases hn : k.payload.port? q with
      | none => simp [portClause, holds?, hn]
      | some n => simp [portClause, holds?, hn, portIn?, portAdmits]

end Conditions

section Lines

variable {tab : Table} {called : String → Option (Option Action)}

/-- A line of conditions and a verdict. -/
theorem ComeTo.lineVerdict? {cs : Line} {b : Bool} (h : ComeTo tab k cs b) (a : Action)
    (called : String → Option (Option Action)) :
    lineVerdict? tab k called (cs ++ [.verdict a]) = some (if b then some a else none) := by
  rw [h]
  cases b <;> rfl

/-- Of lines that decide just if they hold, the first that holds decides. -/
theorem linesVerdict?_map {α : Type} (f : α → Line) (q : α → Bool) (g : α → Action) {l : List α}
    (h : ∀ x ∈ l, lineVerdict? tab k called (f x) = some (if q x then some (g x) else none)) :
    linesVerdict? tab k called (l.map f) = some ((l.find? q).map g) := by
  induction l with
  | nil => rfl
  | cons x l ih =>
    have hx := h x (by simp)
    have ih := ih fun y hy => h y (by simp [hy])
    rw [List.map_cons, linesVerdict?, hx, ih]
    cases hq : q x with
    | true => simp [hq]
    | false => simp [hq]

/-- Whether the chain of a kind decides on a packet. -/
def kindAdmits (k : Packet) : JumpKind → Bool
  | .icmp => k.header.family = .v4 && (k.payload.icmp? .v4).any (· ∈ icmpTypes .v4)
  | .icmp6 => k.header.family = .v6 && (k.payload.icmp? .v6).any (· ∈ icmpTypes .v6)
  | .dns => k.payload.port? .udp = some 53 || k.payload.port? .tcp = some 53
  | .vpn => (k.payload.port? .udp).any (· ∈ [500, 4500]) || k.payload.carries .esp

/-- Lines of one condition and the same verdict. -/
theorem linesVerdict?_pairs (a : Action) (l : List (Clause × Bool))
    (h : ∀ c ∈ l, holds? tab k c.1 = some c.2) :
    linesVerdict? tab k called (l.map fun c => [c.1, .verdict a]) =
      some (if l.any (·.2) then some a else none) := by
  have hlines := linesVerdict?_map (fun c : Clause × Bool => [c.1, .verdict a]) (·.2) (fun _ => a)
    fun c hc => (ComeTo.of_holds? (h c hc)).lineVerdict? a called
  rw [hlines]
  cases hf : l.find? (·.2) with
  | none =>
    have hnone : l.any (·.2) = false := by simpa using hf
    simp [hnone]
  | some c =>
    have hany : l.any (·.2) = true :=
      List.any_eq_true.2 ⟨c, List.mem_of_find?_eq_some hf, List.find?_some hf⟩
    simp [hany]

theorem linesVerdict?_body (j : JumpChain) :
    linesVerdict? tab k called j.body = some (if kindAdmits k j.kind then some j.action else none) := by
  obtain ⟨kind, a⟩ := j
  have hport : ∀ q, holds? tab k (.port q (.one (.single 53))) =
      some (decide (k.payload.port? q = some 53)) := by
    intro q
    cases hn : k.payload.port? q <;> simp [holds?, hn, portIn?, PortEntry.holds, eq_comm]
  have hports : holds? tab k (.port .udp (.list [.single 500, .single 4500])) =
      some ((k.payload.port? .udp).any (· ∈ [500, 4500])) := by
    cases hn : k.payload.port? .udp <;> simp [holds?, hn, portIn?, PortEntry.holds, eq_comm]
  cases kind with
  | icmp =>
    have h : ∀ c ∈ [(Clause.icmpType .v4
        ["destination-unreachable", "echo-reply", "echo-request", "time-exceeded"],
        kindAdmits k .icmp)], holds? tab k c.1 = some c.2 := by
      simp only [List.forall_mem_cons]
      exact ⟨rfl, nofun⟩
    simpa [JumpChain.body] using linesVerdict?_pairs a _ h
  | icmp6 =>
    have h : ∀ c ∈ [(Clause.icmpType .v6
        ["echo-request", "mld-listener-query", "nd-router-solicit", "nd-router-advert",
          "nd-neighbor-solicit", "nd-neighbor-advert"],
        kindAdmits k .icmp6)], holds? tab k c.1 = some c.2 := by
      simp only [List.forall_mem_cons]
      exact ⟨rfl, nofun⟩
    simpa [JumpChain.body] using linesVerdict?_pairs a _ h
  | dns =>
    have h : ∀ c ∈ [(Clause.port .udp (.one (.single 53)), decide (k.payload.port? .udp = some 53)),
        (Clause.port .tcp (.one (.single 53)), decide (k.payload.port? .tcp = some 53))],
        holds? tab k c.1 = some c.2 := by
      simp only [List.forall_mem_cons]
      exact ⟨hport .udp, hport .tcp, nofun⟩
    simpa [JumpChain.body, kindAdmits] using linesVerdict?_pairs a _ h
  | vpn =>
    have h : ∀ c ∈ [(Clause.port .udp (.list [.single 500, .single 4500]),
          (k.payload.port? .udp).any (· ∈ [500, 4500])),
        (Clause.protocol .esp, k.payload.carries .esp)], holds? tab k c.1 = some c.2 := by
      simp only [List.forall_mem_cons]
      exact ⟨hports, rfl, nofun⟩
    simpa [JumpChain.body, kindAdmits] using linesVerdict?_pairs a _ h

end Lines

theorem name_injective {i j : JumpChain} (h : i.name = j.name) : i = j := by
  have hread := Clause.chainOfName?_name i
  rw [h, Clause.chainOfName?_name j] at hread
  exact (Option.some.inj hread).symm

theorem chain?_jump {j : JumpChain} (hj : j ∈ jumpChains p.rules) :
    chain? (tableOf p t) j.name = some (jumpChain j) := by
  have hfirst : ((jumpChains p.rules).map jumpChain).find? (·.name = j.name) =
      some (jumpChain j) := by
    refine find?_of_unique (List.mem_map_of_mem hj) (by simp [jumpChain]) fun c hc hname => ?_
    obtain ⟨i, -, rfl⟩ := List.mem_map.1 hc
    rw [name_injective (of_decide_eq_true hname)]
  rw [chain?, tableOf, List.append_assoc, List.append_assoc, List.find?_append, hfirst]
  rfl

theorem chain?_filter (c : FilterChain) :
    chain? (tableOf p t) c.text = some (filterChain t p c) := by
  have hjump : ((jumpChains p.rules).map jumpChain).find? (·.name = c.text) = none := by
    refine List.find?_eq_none.2 fun d hd => ?_
    obtain ⟨⟨kind, a⟩, -, rfl⟩ := List.mem_map.1 hd
    cases c <;> cases kind <;> cases a <;> decide
  have hmapping : (mappingChain .prerouting t (mappingLines .destination p.mappings)).find?
      (·.name = c.text) = none := by
    refine List.find?_eq_none.2 fun d hd => ?_
    rw [mappingChain] at hd
    split at hd
    · cases hd
    · obtain rfl := List.mem_singleton.1 hd
      have hname : Hook.prerouting.text ≠ c.text := by cases c <;> decide
      simpa using hname
  have hfilter : (FilterChain.all.map (filterChain t p)).find? (·.name = c.text) =
      some (filterChain t p c) := by
    cases c <;> rfl
  rw [chain?, tableOf, List.append_assoc, List.append_assoc, List.find?_append, List.find?_append,
    List.find?_append, hjump, hmapping, hfilter]
  rfl

theorem chainVerdict?_jump {j : JumpChain} (hj : j ∈ jumpChains p.rules) (depth : Nat) :
    chainVerdict? (tableOf p t) k (depth + 1) j.name =
      some (if kindAdmits k j.kind then some j.action else none) := by
  rw [chainVerdict?, chain?_jump hj]
  exact linesVerdict?_body j

theorem mem_jumpChains {r : Rule} (hr : r ∈ p.rules) {j : JumpChain} (hj : Document.jumpChain? r = some j) :
    j ∈ jumpChains p.rules := by
  refine List.mem_filter.2 ⟨j.mem_all, List.any_eq_true.2 ⟨r, hr, ?_⟩⟩
  simpa using hj

theorem protocolAdmits_of_jump {r : Rule} {j : JumpChain} (hj : Document.jumpChain? r = some j) :
    protocolAdmits p k r = kindAdmits k j.kind ∧ j.action = r.action := by
  obtain ⟨kind, hkind, rfl⟩ := Option.map_eq_some_iff.1 hj
  refine ⟨?_, rfl⟩
  cases hprotocol : r.protocol with
  | icmp =>
    cases hversion : r.version with
    | v4 =>
      rw [hprotocol, hversion] at hkind
      cases hkind
      simp [protocolAdmits, hprotocol, hversion, kindAdmits]
    | v6 =>
      rw [hprotocol, hversion] at hkind
      cases hkind
      simp [protocolAdmits, hprotocol, hversion, kindAdmits]
  | dns =>
    rw [hprotocol] at hkind
    cases hkind
    simp [protocolAdmits, hprotocol, kindAdmits]
  | vpn =>
    rw [hprotocol] at hkind
    cases hkind
    simp [protocolAdmits, hprotocol, kindAdmits]
  | any => rw [hprotocol] at hkind; cases hkind
  | tcp => rw [hprotocol] at hkind; cases hkind
  | udp => rw [hprotocol] at hkind; cases hkind

section Rules

variable {r : Rule} (hs : Resolves p r) (hr : r ∈ p.rules)

include hs hr

/-- The end of the line of a rule, where the protocol decides. -/
theorem lineVerdict?_verdictClauses (depth : Nat) :
    lineVerdict? (tableOf p t) k (chainVerdict? (tableOf p t) k (depth + 1)) (verdictClauses r) =
      some (if protocolAdmits p k r then some r.action else none) := by
  cases hj : Document.jumpChain? r with
  | some j =>
    obtain ⟨hadmits, haction⟩ := protocolAdmits_of_jump (p := p) (k := k) hj
    have hcalled := chainVerdict?_jump (t := t) (k := k) (mem_jumpChains hr hj) depth
    rw [verdictClauses, hj, hadmits, ← haction]
    simp only [lineVerdict?, hcalled]
    cases kindAdmits k j.kind <;> rfl
  | none =>
    have hport : ∀ q : Transport, q ≠ .esp → lineVerdict? (tableOf p t) k
        (chainVerdict? (tableOf p t) k (depth + 1)) ([portClause q r.ports] ++ [.verdict r.action]) =
        some (if (k.payload.port? q).any fun n => portAdmits p n r.ports then some r.action
          else none) :=
      fun q hq => (comeTo_port hq hs.ports).lineVerdict? r.action _
    rw [verdictClauses, hj]
    cases hprotocol : r.protocol with
    | tcp => simpa [protocolAdmits, hprotocol] using hport .tcp (by decide)
    | udp => simpa [protocolAdmits, hprotocol] using hport .udp (by decide)
    | any => simp [protocolAdmits, hprotocol, lineVerdict?]
    | icmp => simp [Document.jumpChain?, jumpKind?, hprotocol] at hj
    | dns => simp [Document.jumpChain?, jumpKind?, hprotocol] at hj
    | vpn => simp [Document.jumpChain?, jumpKind?, hprotocol] at hj

/-- The line of a rule decides on the packets that the rule decides on, and as the rule does. -/
theorem lineVerdict?_ruleLine (hrule : r.Sound) (mark : String) (depth : Nat) :
    lineVerdict? (tableOf p t) k (chainVerdict? (tableOf p t) k (depth + 1)) (ruleLine mark r) =
      some (if admits p k r then some r.action else none) := by
  have hcome := (comeTo_conditions (t := t) (k := k) hrule hs).append
    (comeTo_log (tableOf p t) mark r.log)
  rw [ruleLine, hcome, lineVerdict?_verdictClauses hs hr, admits]
  cases directionAdmits k r.direction && addressAdmits p k .source r.source &&
    addressAdmits p k .destination r.destination <;> simp

end Rules

theorem deciding?_eq (c : FilterChain) :
    deciding? p k c = (rulesOf c p.rules).find? (admits p k) := by
  rw [rulesOf, find?_mergeSort, List.filter_filter, deciding?]
  congr 2
  funext r
  exact Bool.and_comm _ _

/-- The filter chains of the table of a checked policy. -/
theorem tableVerdict?_tableOf (hp : p.Sound) (c : FilterChain) :
    tableVerdict? (tableOf p t) k c = some (verdict p k c) := by
  have hlines : linesVerdict? (tableOf p t) k (chainVerdict? (tableOf p t) k (14 + 1))
      (chainLines t.logMark c p.rules) = some ((deciding? p k c).map (·.action)) := by
    rw [deciding?_eq]
    refine linesVerdict?_map _ _ _ fun r hr => ?_
    have hr := (List.mem_filter.1 (List.mem_mergeSort.1 hr)).1
    exact lineVerdict?_ruleLine (resolves_of_sound hp hr) hr (hp.rules r hr) t.logMark 14
  have hchain : chainVerdict? (tableOf p t) k depthLimit c.text =
      some ((deciding? p k c).map (·.action)) := by
    rw [depthLimit, chainVerdict?, chain?_filter]
    exact hlines
  have hhook : hookOf c = (Hook.ofChain c, c.text) := by cases c <;> rfl
  rw [tableVerdict?, hhook, chain?_filter]
  simp only [filterChain, Option.bind_eq_bind, Option.bind_some, hchain, and_self, if_true, verdict]
  cases deciding? p k c <;> rfl

/-- A document decides on every packet as the policy does that it was built from. -/
theorem verdict_of_build {s : Spec} {t : Target} {d : Document} (h : Document.build s t = .ok d) :
    ∃ p table, s.check = .ok p ∧ Table.read? d.text = some table ∧
      ∀ c k, tableVerdict? table k c = some (verdict p k c) := by
  obtain ⟨p, hbuilt⟩ := built_of_build h
  exact ⟨p, tableOf p t, hbuilt.checked, hbuilt.read?_text,
    fun c k => tableVerdict?_tableOf hbuilt.sound c⟩

theorem verdict_of_build_web : ∃ d p table, Document.build webSpec webTarget = .ok d ∧
    webSpec.check = .ok p ∧ Table.read? d.text = some table ∧
      ∀ c k, tableVerdict? table k c = some (verdict p k c) := by
  obtain ⟨d, hd⟩ := exists_webDocument
  obtain ⟨p, table, h⟩ := verdict_of_build hd
  exact ⟨d, p, table, hd, h⟩

end Filter
end TwinWall
