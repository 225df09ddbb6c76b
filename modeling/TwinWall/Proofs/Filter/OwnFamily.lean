import TwinWall.Proofs.Filter.RuleLine

/-! Which rules act on the packets of their own family only. A table sees both families, and no clause of a
line states the family alone: it is in the addresses, and in the types of messages of a protocol that each
family has for itself. -/
namespace TwinWall
namespace Filter

open Net Policy Document

variable {p : Ruleset} {t : Target} {k : Packet} {r : Rule}

/-- Whether something in the line of a rule is of the rule's family. -/
def NamesFamily (r : Rule) : Prop :=
  r.source ≠ .any ∨ r.destination ≠ .any ∨ r.protocol = .icmp

theorem family_of_addressAdmits {f : Family} {s : Side} {a : AddressMatch} (ha : a.Sound f)
    (hset : ∀ n, a = .set n → HasSet p n (SetType.ofFamily f))
    (hany : a ≠ .any) (h : addressAdmits p k s a = true) : k.header.family = f := by
  cases a with
  | any => exact absurd rfl hany
  | set n =>
    obtain ⟨d, hd, htype, hsound⟩ := hset n rfl
    simp only [addressAdmits, hd, Option.any_some] at h
    exact family_of_coversAddress hsound htype h
  | list l =>
    obtain ⟨n, hn, hlies⟩ := List.any_eq_true.1 h
    rw [Header.family_of_lies hlies, ha.2 n hn]

theorem family_of_admits (hrule : r.Sound) (hs : Resolves p r) (hnames : NamesFamily r)
    (h : admits p k r = true) : k.header.family = r.version := by
  obtain ⟨hmeets, hprotocol⟩ := admits_iff.1 h
  simp only [meets, Bool.and_eq_true] at hmeets
  obtain ⟨⟨-, hsource⟩, hdestination⟩ := hmeets
  rcases hnames with hany | hany | hicmp
  · exact family_of_addressAdmits hrule.source (hs.address (Or.inl rfl)) hany hsource
  · exact family_of_addressAdmits hrule.destination (hs.address (Or.inr rfl)) hany hdestination
  · simp only [protocolAdmits, hicmp, Bool.and_eq_true, decide_eq_true_eq] at hprotocol
    exact hprotocol.1

section Unnamed

variable (hnames : ¬ NamesFamily r)

include hnames

/-- A rule that does not name its family does not look at the addresses of a packet. -/
theorem admits_congr_header (h : Header) : admits p { k with header := h } r = admits p k r := by
  simp only [NamesFamily, not_or, not_not] at hnames
  obtain ⟨hsource, hdestination, hicmp⟩ := hnames
  have hdirection : directionAdmits { k with header := h } r.direction =
      directionAdmits k r.direction := by
    cases r.direction <;> rfl
  have hprotocol : protocolAdmits p { k with header := h } r = protocolAdmits p k r := by
    cases hr : r.protocol with
    | icmp => exact absurd hr hicmp
    | _ => simp [protocolAdmits, hr]
  rw [admits, admits, hdirection, hprotocol, hsource, hdestination]
  rfl

/-- It acts on some packet, whatever the addresses of that packet are. -/
theorem exists_admits (hrule : r.Sound) (hs : Resolves p r) : ∃ k, admits p k r = true := by
  obtain ⟨n, hn⟩ := exists_portAdmits hrule hs
  have hadmits : ∀ c : Payload, (∀ k : Packet, k.payload = c → protocolAdmits p k r = true) →
      ∃ k, admits p k r = true := by
    intro c hc
    obtain ⟨k, -, hk⟩ := exists_admits_of_payload hrule hs fun k hk _ => hc k hk
    exact ⟨k, hk⟩
  cases hr : r.protocol with
  | any => exact hadmits .esp fun k _ => by simp [protocolAdmits, hr]
  | tcp => exact hadmits (.tcp n) fun k hk => by simp [protocolAdmits, hr, hk, Payload.port?, hn]
  | udp => exact hadmits (.udp n) fun k hk => by simp [protocolAdmits, hr, hk, Payload.port?, hn]
  | icmp => exact absurd (Or.inr (Or.inr hr)) hnames
  | dns => exact hadmits (.udp 53) fun k hk => by simp [protocolAdmits, hr, hk, Payload.port?]
  | vpn => exact hadmits .esp fun k hk => by simp [protocolAdmits, hr, hk, Payload.carries]

end Unnamed

/-- Addresses of a family. -/
def headerOf : Family → Header
  | .v4 => .v4 0 0
  | .v6 => .v6 0 0

/-- A rule keeps to its family just if it names it; any other acts alike on packets of both families. -/
theorem ownFamily_iff {v : Json.Value} (h : Rule.check v = .ok r) (hs : Resolves p r)
    (hr : r ∈ p.rules) (mark : String) :
    ((∀ k, ActsOn p t mark r k → k.header.family = r.version) ↔ NamesFamily r) ∧
      (¬ NamesFamily r → ∀ k header,
        (ActsOn p t mark r { k with header } ↔ ActsOn p t mark r k)) := by
  have hrule := Rule.sound_of_check h
  simp only [actsOn_iff hrule hs hr]
  refine ⟨⟨fun hall => ?_, fun hnames k => family_of_admits hrule hs hnames⟩, fun hnames k header => ?_⟩
  · by_contra hnames
    obtain ⟨k, hk⟩ := exists_admits hnames hrule hs
    -- The same packet with addresses of the other family.
    have hmoved : ∀ f, f = r.version := by
      intro f
      have hfamily := hall { k with header := headerOf f } (by rwa [admits_congr_header hnames])
      cases f <;> exact hfamily
    exact absurd ((hmoved .v4).trans (hmoved .v6).symm) (by decide)
  · rw [admits_congr_header hnames]

theorem ownFamily_iff_shop : Rule.check shopValue = .ok shopRule ∧
    Resolves (alone shopRule [officeSet, webSet]) shopRule ∧
    shopRule ∈ (alone shopRule [officeSet, webSet]).rules ∧ NamesFamily shopRule ∧
    ∀ k, ActsOn (alone shopRule [officeSet, webSet]) webTarget webTarget.logMark shopRule k →
      k.header.family = .v4 := by
  have hnames : NamesFamily shopRule := Or.inl nofun
  exact ⟨shopRule_check, shopRule_resolves, mem_alone _ _, hnames,
    (ownFamily_iff shopRule_check shopRule_resolves (mem_alone _ _) webTarget.logMark).1.2 hnames⟩

/-- A rule for packets of the first family, from everywhere to everywhere. -/
def closedValue : Json.Value :=
  .record [("action", .string "drop"), ("version", .ofNat 4), ("protocol", .string "any"),
    ("source", .array [.string "any"]), ("destination", .array [.string "any"]),
    ("iiface", .string "ext0")]

def closedRule : Rule where
  version := .v4
  source := .any
  destination := .any
  protocol := .any
  ports := .list []
  action := .drop
  log := false
  direction := .input (.named "ext0")
  order := 0

def newerPacket : Packet := ⟨some "ext0", none, .v6 1 1, .tcp 443⟩

/-- The rule is for the first family and drops a packet of the second. -/
theorem family_overlooked : Rule.check closedValue = .ok closedRule ∧ closedRule.version = .v4 ∧
    ActsOn (alone closedRule []) webTarget webTarget.logMark closedRule newerPacket ∧
    newerPacket.header.family = .v6 := by
  have hcheck : Rule.check closedValue = .ok closedRule := by rfl
  have hs : Resolves (alone closedRule []) closedRule := resolves_of_setUses rfl
  refine ⟨hcheck, rfl, ?_, rfl⟩
  rw [actsOn_iff (Rule.sound_of_check hcheck) hs (mem_alone _ _)]
  decide

end Filter
end TwinWall
