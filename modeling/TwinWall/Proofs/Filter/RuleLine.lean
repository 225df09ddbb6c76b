import TwinWall.Proofs.Filter.Verdict
import TwinWall.Proofs.Net.Blocks

/-! The line of one rule, with the sets and the chain that it names. It acts on the packets that the rule
admits; and whatever a rule asks of interfaces and addresses, packets with any content meet it. -/
namespace TwinWall
namespace Filter

open Net Policy Document

variable {p : Ruleset} {t : Target} {k : Packet} {r : Rule} {mark : String}

/-- Whether a packet has what a rule asks of interfaces and addresses. -/
def meets (p : Ruleset) (k : Packet) (r : Rule) : Bool :=
  directionAdmits k r.direction && addressAdmits p k .source r.source &&
    addressAdmits p k .destination r.destination

/-- Whether a line gives a packet the action of its rule, in the table of a policy. The chain that the line
is in takes one of the levels. -/
def ActsOn (p : Ruleset) (t : Target) (mark : String) (r : Rule) (k : Packet) : Prop :=
  lineVerdict? (tableOf p t) k (chainVerdict? (tableOf p t) k (depthLimit - 1)) (ruleLine mark r) =
    some (some r.action)

theorem admits_iff : admits p k r = true ↔ meets p k r = true ∧ protocolAdmits p k r = true := by
  rw [admits, meets, Bool.and_eq_true]

theorem actsOn_iff (hrule : r.Sound) (hs : Resolves p r) (hr : r ∈ p.rules) :
    ActsOn p t mark r k ↔ admits p k r = true := by
  have hline := lineVerdict?_ruleLine (t := t) (k := k) hs hr hrule mark 14
  have hlevel : depthLimit - 1 = 14 + 1 := rfl
  rw [ActsOn, hlevel, hline]
  cases admits p k r <;> simp

/-- A packet on the interfaces that a rule names. -/
def onInterfaces (d : Direction) (h : Header) (c : Payload) : Packet :=
  ⟨d.incoming?.bind Interface.name?, d.outgoing?.bind Interface.name?, h, c⟩

theorem directionAdmits_onInterfaces (d : Direction) (h : Header) (c : Payload) :
    directionAdmits (onInterfaces d h c) d = true := by
  have hadmits : ∀ i : Interface, interfaceAdmits i.name? i = true := by
    intro i
    cases i <;> simp [interfaceAdmits, Interface.name?]
  cases d <;>
    simp [directionAdmits, onInterfaces, Direction.incoming?, Direction.outgoing?, hadmits]

theorem HasSet.exists_element {n : String} {u : SetType} (h : HasSet p n u) :
    ∃ d, p.set? n = some d ∧ ∃ e ∈ d.elements, e.OfType u := by
  obtain ⟨d, hd, rfl, hsound⟩ := h
  obtain ⟨e, he⟩ := List.exists_mem_of_ne_nil _ hsound.elements_ne_nil
  exact ⟨d, hd, e, he, hsound.elements e he⟩

/-- Some network has only addresses that a side takes. -/
theorem exists_network {f : Family} {a : AddressMatch} (ha : a.Sound f)
    (hset : ∀ n, a = .set n → HasSet p n (SetType.ofFamily f)) :
    ∃ n : Subnet, n.family = f ∧
      ∀ (k : Packet) (s : Side), k.header.lies s n = true → addressAdmits p k s a = true := by
  cases a with
  | any =>
    cases f with
    | v4 => exact ⟨.v4 ⟨0, 0, Nat.zero_le _⟩, rfl, fun _ _ _ => rfl⟩
    | v6 => exact ⟨.v6 ⟨0, 0, Nat.zero_le _⟩, rfl, fun _ _ _ => rfl⟩
  | set name =>
    obtain ⟨d, hd, e, he, hof⟩ := (hset name rfl).exists_element
    cases e with
    | network n =>
      refine ⟨n, by cases f <;> exact hof, fun k s hlies => ?_⟩
      simp only [addressAdmits, hd, Option.any_some]
      exact List.any_eq_true.2 ⟨_, he, hlies⟩
    | port q => cases f <;> cases hof
    | mac w => cases f <;> cases hof
  | list l =>
    obtain ⟨n, hn⟩ := List.exists_mem_of_ne_nil _ ha.1
    exact ⟨n, ha.2 n hn, fun k s hlies => List.any_eq_true.2 ⟨n, hn, hlies⟩⟩

/-- An address of each of two networks of one family. -/
theorem exists_header {f : Family} {m n : Subnet} (hm : m.family = f) (hn : n.family = f) :
    ∃ h : Header, h.family = f ∧ h.lies .source m = true ∧ h.lies .destination n = true := by
  subst hm
  cases m with
  | v4 m =>
    cases n with
    | v4 n => exact ⟨.v4 m.address n.address, rfl, m.contains_self, n.contains_self⟩
    | v6 n => cases hn
  | v6 m =>
    cases n with
    | v4 n => cases hn
    | v6 n => exact ⟨.v6 m.address n.address, rfl, m.contains_self, n.contains_self⟩

theorem exists_meets (hrule : r.Sound) (hs : Resolves p r) (c : Payload) :
    ∃ k, k.payload = c ∧ k.header.family = r.version ∧ meets p k r = true := by
  obtain ⟨m, hm, hsource⟩ := exists_network hrule.source (hs.address (Or.inl rfl))
  obtain ⟨n, hn, hdestination⟩ := exists_network hrule.destination (hs.address (Or.inr rfl))
  obtain ⟨h, hfamily, hinm, hinn⟩ := exists_header hm hn
  refine ⟨onInterfaces r.direction h c, rfl, hfamily, ?_⟩
  rw [meets, directionAdmits_onInterfaces, hsource _ _ hinm, hdestination _ _ hinn]
  rfl

/-- A rule admits some packet with a content that its protocol takes. -/
theorem exists_admits_of_payload (hrule : r.Sound) (hs : Resolves p r) {c : Payload}
    (hc : ∀ k : Packet, k.payload = c → k.header.family = r.version → protocolAdmits p k r = true) :
    ∃ k, k.payload = c ∧ admits p k r = true := by
  obtain ⟨k, hpayload, hfamily, hmeets⟩ := exists_meets hrule hs c
  exact ⟨k, hpayload, admits_iff.2 ⟨hmeets, hc k hpayload hfamily⟩⟩

theorem exists_holds {e : PortEntry} (h : e.Sound) : ∃ n, e.holds n = true := by
  cases e with
  | single q => exact ⟨q, by simp [PortEntry.holds]⟩
  | range a b => exact ⟨a, by simp [PortEntry.holds, h.2.1]⟩

/-- No rule is without a port that it takes. -/
theorem exists_portAdmits (hrule : r.Sound) (hs : Resolves p r) :
    ∃ n, portAdmits p n r.ports = true := by
  have hports := hrule.ports
  cases hm : r.ports with
  | set name =>
    obtain ⟨d, hd, e, he, hof⟩ := (hs.ports name hm).exists_element
    cases e with
    | network n => cases hof
    | port q =>
      obtain ⟨n, hn⟩ := exists_holds hof
      refine ⟨n, ?_⟩
      simp only [portAdmits, hd, Option.any_some]
      exact List.any_eq_true.2 ⟨_, he, hn⟩
    | mac w => cases hof
  | list l =>
    rw [hm] at hports
    cases l with
    | nil => exact ⟨0, rfl⟩
    | cons e l =>
      obtain ⟨n, hn⟩ := exists_holds (hports e (by simp))
      exact ⟨n, by simp [portAdmits, hn]⟩

/-- A policy of one rule, with sets for it. -/
def alone (r : Rule) (sets : List NamedSet) : Ruleset := ⟨[r], sets, [], {}⟩

/-- A rule that logs, with a set of addresses and a set of ports. -/
def shopValue : Json.Value :=
  .record [("action", .string "accept"), ("version", .ofNat 4), ("protocol", .string "tcp"),
    ("source", .array [.string "@office"]), ("destination", .array [.string "any"]),
    ("port", .array [.string "@web"]), ("log", .bool true), ("iiface", .string "ext0")]

def shopRule : Rule where
  version := .v4
  source := .set "office"
  destination := .any
  protocol := .tcp
  ports := .set "web"
  action := .accept
  log := true
  direction := .input (.named "ext0")
  order := 0

def officeSet : NamedSet := ⟨"office", .ipv4Addr, [.network (.v4 (.ofLen 0x0A000000 24))]⟩

def webSet : NamedSet := ⟨"web", .inetService, [.port (.single 80), .port (.range 8000 8080)]⟩

theorem shopRule_check : Rule.check shopValue = .ok shopRule := by rfl

theorem officeSet_sound : officeSet.Sound := by
  refine NamedSet.sound_of_check (v := .record [("name", .string "office"),
    ("type", .string "ipv4_addr"), ("elements", .array [.string "10.0.0.0/24"])]) ?_
  rfl

theorem webSet_sound : webSet.Sound := by
  refine NamedSet.sound_of_check (v := .record [("name", .string "web"),
    ("type", .string "inet_service"), ("elements", .array [.ofNat 80, .string "8000-8080"])]) ?_
  rfl

theorem shopRule_resolves : Resolves (alone shopRule [officeSet, webSet]) shopRule := by
  intro u hu
  have hu : u = ("office", .ipv4Addr) ∨ u = ("web", .inetService) := by
    simpa [Rule.setUses, shopRule, AddressMatch.set?, PortMatch.set?, SetType.ofFamily] using hu
  rcases hu with rfl | rfl
  · exact ⟨officeSet, by decide, rfl, officeSet_sound⟩
  · exact ⟨webSet, by decide, rfl, webSet_sound⟩

theorem mem_alone (r : Rule) (sets : List NamedSet) : r ∈ (alone r sets).rules :=
  List.mem_singleton_self r

/-- A rule without sets has all sets that it uses. -/
theorem resolves_of_setUses (h : r.setUses = []) : Resolves p r := by
  intro u hu
  rw [h] at hu
  cases hu

end Filter
end TwinWall
