import TwinWall.Proofs.Filter.RuleLine

/-! Which rules hold their packets to the ports that they name. Only the lines of two protocols match ports.
A line that jumps has the ports of its chain in their place, and the line of a rule for every protocol has
none. -/
namespace TwinWall
namespace Filter

open Net Policy Document

variable {p : Ruleset} {t : Target} {k : Packet} {r : Rule}

/-- The port that a packet goes to, if what it carries has ports. -/
def Payload.destinationPort? : Payload → Option Nat
  | tcp n => some n
  | udp n => some n
  | _ => none

/-- Whether a packet goes to one of the ports of a match. -/
def portIn (p : Ruleset) (k : Packet) (m : PortMatch) : Bool :=
  k.payload.destinationPort?.any fun n => portAdmits p n m

theorem Payload.destinationPort?_of_port? {c : Payload} {q : Transport} {n : Nat}
    (h : c.port? q = some n) : c.destinationPort? = some n := by
  cases c <;> cases q <;> first | exact h | cases h

theorem portIn_of_port? {q : Transport} {n : Nat} {m : PortMatch} (h : k.payload.port? q = some n)
    (hm : portAdmits p n m = true) : portIn p k m = true := by
  rw [portIn, Payload.destinationPort?_of_port? h]
  exact hm

/-- The ports of a rule of a transport are in its line. -/
theorem portIn_of_transport {q : Transport} {m : PortMatch}
    (h : (k.payload.port? q).any (fun n => portAdmits p n m) = true) : portIn p k m = true := by
  obtain ⟨n, hn, hm⟩ := (Option.any_eq_true _ _).1 h
  exact portIn_of_port? hn hm

theorem portIn_of_admits (hbound : r.protocol = .tcp ∨ r.protocol = .udp ∨
    r.protocol = .dns ∧ portAdmits p 53 r.ports = true) (h : admits p k r = true) :
    portIn p k r.ports = true := by
  have hprotocol := (admits_iff.1 h).2
  rcases hbound with hr | hr | ⟨hr, hdns⟩
  · simp only [protocolAdmits, hr] at hprotocol
    exact portIn_of_transport hprotocol
  · simp only [protocolAdmits, hr] at hprotocol
    exact portIn_of_transport hprotocol
  · simp only [protocolAdmits, hr, Bool.or_eq_true, decide_eq_true_eq] at hprotocol
    rcases hprotocol with hn | hn <;> exact portIn_of_port? hn hdns

/-- Every other protocol takes some content without a port of the match. -/
theorem bound_of_forall_portIn (hrule : r.Sound) (hs : Resolves p r)
    (hall : ∀ k, admits p k r = true → portIn p k r.ports = true) :
    r.protocol = .tcp ∨ r.protocol = .udp ∨ r.protocol = .dns ∧ portAdmits p 53 r.ports = true := by
  have hbound : ∀ c : Payload, (∀ k : Packet, k.payload = c → k.header.family = r.version →
      protocolAdmits p k r = true) → c.destinationPort?.any (fun n => portAdmits p n r.ports) = true := by
    intro c hc
    obtain ⟨k, rfl, hk⟩ := exists_admits_of_payload hrule hs hc
    exact hall k hk
  cases hprotocol : r.protocol with
  | tcp => simp
  | udp => simp
  | any =>
    have hesp := hbound .esp fun k _ _ => by simp [protocolAdmits, hprotocol]
    cases hesp
  | vpn =>
    have hesp := hbound .esp fun k hk _ => by simp [protocolAdmits, hprotocol, hk, Payload.carries]
    cases hesp
  | dns =>
    have hdns := hbound (.udp 53) fun k hk _ => by
      simp [protocolAdmits, hprotocol, hk, Payload.port?]
    exact Or.inr (Or.inr ⟨rfl, hdns⟩)
  | icmp =>
    cases hversion : r.version with
    | v4 =>
      have hecho := hbound (.icmp 8) fun k hk hf => by
        simp [protocolAdmits, hprotocol, hversion, hk, hf, Payload.icmp?, icmpTypes]
      cases hecho
    | v6 =>
      have hecho := hbound (.icmp6 128) fun k hk hf => by
        simp [protocolAdmits, hprotocol, hversion, hk, hf, Payload.icmp?, icmpTypes]
      cases hecho

/-- The rules that act on no packet to a port that they do not name. -/
theorem portBound_iff {v : Json.Value} (h : Rule.check v = .ok r) (hs : Resolves p r)
    (hr : r ∈ p.rules) (mark : String) :
    (∀ k, ActsOn p t mark r k → portIn p k r.ports = true) ↔
      r.protocol = .tcp ∨ r.protocol = .udp ∨
        r.protocol = .dns ∧ portAdmits p 53 r.ports = true := by
  have hrule := Rule.sound_of_check h
  simp only [actsOn_iff hrule hs hr]
  constructor
  · intro hall
    exact bound_of_forall_portIn hrule hs hall
  · intro hbound k hk
    exact portIn_of_admits hbound hk

theorem portBound_iff_shop : Rule.check shopValue = .ok shopRule ∧
    Resolves (alone shopRule [officeSet, webSet]) shopRule ∧
    shopRule ∈ (alone shopRule [officeSet, webSet]).rules ∧ shopRule.protocol = .tcp ∧
    ∀ k, ActsOn (alone shopRule [officeSet, webSet]) webTarget webTarget.logMark shopRule k →
      portIn (alone shopRule [officeSet, webSet]) k (.set "web") = true :=
  ⟨shopRule_check, shopRule_resolves, mem_alone _ _, rfl,
    (portBound_iff shopRule_check shopRule_resolves (mem_alone _ _) webTarget.logMark).2 (Or.inl rfl)⟩

/-- A rule for one port of every protocol. -/
def openedValue : Json.Value :=
  .record [("action", .string "accept"), ("version", .ofNat 4), ("protocol", .string "any"),
    ("source", .array [.string "any"]), ("destination", .array [.string "any"]),
    ("port", .array [.string "22"]), ("iiface", .string "ext0")]

def openedRule : Rule where
  version := .v4
  source := .any
  destination := .any
  protocol := .any
  ports := .list [.single 22]
  action := .accept
  log := false
  direction := .input (.named "ext0")
  order := 0

def telnetPacket : Packet := ⟨some "ext0", none, .v4 0x0A000005 0x0A000009, .tcp 23⟩

/-- The rule names the port 22 and accepts a packet to the port 23. -/
theorem port_overlooked : Rule.check openedValue = .ok openedRule ∧
    openedRule.ports = .list [.single 22] ∧
    ActsOn (alone openedRule []) webTarget webTarget.logMark openedRule telnetPacket ∧
    portIn (alone openedRule []) telnetPacket openedRule.ports = false := by
  have hcheck : Rule.check openedValue = .ok openedRule := by rfl
  have hs : Resolves (alone openedRule []) openedRule := resolves_of_setUses rfl
  refine ⟨hcheck, rfl, ?_, by decide⟩
  rw [actsOn_iff (Rule.sound_of_check hcheck) hs (mem_alone _ _)]
  decide

end Filter
end TwinWall
