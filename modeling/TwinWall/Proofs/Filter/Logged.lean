import TwinWall.Proofs.Filter.RuleLine

/-! Which packets a rule logs. The log clause stands behind the interfaces and the addresses and in front of
the protocol, so it is come to by all packets that have the former, also by those that the rule does not
match. -/
namespace TwinWall
namespace Filter

open Net Policy Document

variable {p : Ruleset} {t : Target} {k : Packet} {r : Rule} {mark : String}

/-- Whether a line logs a packet with a mark: a log clause has the mark, and all clauses in front of it
hold. -/
def logs (tab : Table) (k : Packet) (mark : String) : Line → Bool
  | [] => false
  | c :: l => decide (c = .log mark) || decide (holds? tab k c = some true) && logs tab k mark l

/-- Clauses that look at a packet and do nothing else. -/
def IsMatch : Clause → Prop
  | .incoming _ | .outgoing _ | .address _ _ _ | .protocol _ | .port _ _ | .icmpType _ _ => True
  | _ => False

section Lines

variable {tab : Table} {cs : Line}

theorem IsMatch.ne_log {c : Clause} (h : IsMatch c) : c ≠ .log mark := by
  rintro rfl
  exact h

theorem logs_append (h : ∀ c ∈ cs, IsMatch c) (l : Line) :
    logs tab k mark (cs ++ l) =
      (cs.all (fun c => holds? tab k c = some true) && logs tab k mark l) := by
  induction cs with
  | nil => rfl
  | cons c cs ih =>
    have hc : c ≠ .log mark := (h c (by simp)).ne_log
    have ih := ih fun d hd => h d (by simp [hd])
    rw [List.cons_append, logs, ih, List.all_cons]
    simp [hc, Bool.and_assoc]

/-- A match lets the packet through or ends the line. -/
theorem lineVerdict?_of_isMatch {c : Clause} (h : IsMatch c)
    (called : String → Option (Option Action)) (l : Line) :
    lineVerdict? tab k called (c :: l) =
      (holds? tab k c).bind fun b => if b then lineVerdict? tab k called l else some none := by
  cases c with
  | verdict a => cases h
  | jump j => cases h
  | _ => rfl

theorem lineVerdict?_verdict_iff (h : ∀ c ∈ cs, IsMatch c) (a : Action)
    (called : String → Option (Option Action)) :
    lineVerdict? tab k called (cs ++ [.verdict a]) = some (some a) ↔
      ∀ c ∈ cs, holds? tab k c = some true := by
  induction cs with
  | nil => simp [lineVerdict?]
  | cons c cs ih =>
    have ih := ih fun d hd => h d (by simp [hd])
    rw [List.cons_append, lineVerdict?_of_isMatch (h c (by simp)), List.forall_mem_cons, ← ih]
    cases holds? tab k c with
    | none => simp
    | some b => cases b <;> simp

/-- Matches come to true just if each of them holds. -/
theorem ComeTo.forall_holds_iff {b : Bool} (hc : ComeTo tab k cs b) (h : ∀ c ∈ cs, IsMatch c) :
    (∀ c ∈ cs, holds? tab k c = some true) ↔ b = true := by
  have hline := hc.lineVerdict? .accept fun _ => none
  rw [← lineVerdict?_verdict_iff h .accept fun _ => none, hline]
  cases b <;> simp

end Lines

theorem isMatch_conditions (r : Rule) : ∀ c ∈ conditions r, IsMatch c := by
  have haddress : ∀ f s a, ∀ c ∈ addressClause f s a, IsMatch c := by
    intro f s a c hc
    cases a with
    | any => cases hc
    | set n =>
      obtain rfl := List.mem_singleton.1 hc
      trivial
    | list l =>
      obtain rfl := List.mem_singleton.1 hc
      trivial
  intro c hc
  simp only [conditions, List.mem_append] at hc
  rcases hc with ((hc | hc) | hc) | hc
  · obtain ⟨i, -, rfl⟩ := Option.map_eq_some_iff.1 (Option.mem_toList.1 hc)
    trivial
  · obtain ⟨o, -, rfl⟩ := Option.map_eq_some_iff.1 (Option.mem_toList.1 hc)
    trivial
  · exact haddress _ _ _ c hc
  · exact haddress _ _ _ c hc

/-- Behind its place no clause of a rule logs. -/
theorem logs_verdictClauses (tab : Table) (r : Rule) : logs tab k mark (verdictClauses r) = false := by
  have hport : ∀ q m, portClause q m ≠ .log mark := by
    intro q m
    cases m with
    | set n => nofun
    | list l => cases l <;> nofun
  rw [verdictClauses]
  split
  · simp [logs, holds?]
  · split <;> simp [logs, holds?, hport]

/-- The line of a rule logs the packets that have what the rule asks of interfaces and addresses. -/
theorem logs_ruleLine (hrule : r.Sound) (hs : Resolves p r) :
    logs (tableOf p t) k mark (ruleLine mark r) = (r.log && meets p k r) := by
  have hmatch := isMatch_conditions r
  have hholds : (conditions r).all (fun c => holds? (tableOf p t) k c = some true) = meets p k r := by
    rw [Bool.eq_iff_iff, List.all_eq_true]
    simp only [decide_eq_true_eq]
    exact (comeTo_conditions hrule hs).forall_holds_iff hmatch
  rw [ruleLine, List.append_assoc, logs_append hmatch, hholds, Bool.and_comm]
  cases r.log with
  | false => simp [logs_verdictClauses]
  | true => simp [logs]

/-- What a packet carries is of a protocol that no rule but one of every protocol asks for. -/
theorem protocolAdmits_other {n : Nat} (hk : k.payload = .other n) :
    protocolAdmits p k r = true ↔ r.protocol = .any := by
  cases hprotocol : r.protocol <;>
    simp [protocolAdmits, hprotocol, hk, Payload.port?, Payload.icmp?, Payload.carries]

/-- A rule logs all packets that it matches, and if it asks for a protocol also others. -/
theorem logs_iff {v : Json.Value} (h : Rule.check v = .ok r) (hlog : r.log = true)
    (hs : Resolves p r) (hr : r ∈ p.rules) (mark : String) :
    (∀ k, logs (tableOf p t) k mark (ruleLine mark r) = true ↔ meets p k r = true) ∧
      (∀ k, admits p k r = true → logs (tableOf p t) k mark (ruleLine mark r) = true) ∧
      ((∀ k, logs (tableOf p t) k mark (ruleLine mark r) = true ↔ ActsOn p t mark r k) ↔
        r.protocol = .any) := by
  have hrule := Rule.sound_of_check h
  have hlogs : ∀ k, logs (tableOf p t) k mark (ruleLine mark r) = true ↔ meets p k r = true := by
    intro k
    rw [logs_ruleLine hrule hs, hlog, Bool.true_and]
  refine ⟨hlogs, fun k hk => (hlogs k).2 (admits_iff.1 hk).1, ?_⟩
  simp only [hlogs, actsOn_iff hrule hs hr, admits_iff]
  constructor
  · intro hall
    obtain ⟨k, hpayload, -, hmeets⟩ := exists_meets hrule hs (.other 0)
    exact (protocolAdmits_other hpayload).1 ((hall k).1 hmeets).2
  · intro hany k
    simp [protocolAdmits, hany]

theorem logs_iff_shop : Rule.check shopValue = .ok shopRule ∧
    Resolves (alone shopRule [officeSet, webSet]) shopRule ∧
    shopRule ∈ (alone shopRule [officeSet, webSet]).rules ∧
    ∀ k, logs (tableOf (alone shopRule [officeSet, webSet]) webTarget) k webTarget.logMark
        (ruleLine webTarget.logMark shopRule) = true ↔
      meets (alone shopRule [officeSet, webSet]) k shopRule = true :=
  ⟨shopRule_check, shopRule_resolves, mem_alone _ _,
    (logs_iff shopRule_check rfl shopRule_resolves (mem_alone _ _) webTarget.logMark).1⟩

/-- A rule for one port, and a packet to another. -/
def sshValue : Json.Value :=
  .record [("action", .string "accept"), ("version", .ofNat 4), ("protocol", .string "tcp"),
    ("source", .array [.string "10.0.0.0/24"]), ("destination", .array [.string "any"]),
    ("port", .array [.string "22"]), ("log", .bool true), ("iiface", .string "ext0")]

def sshRule : Rule where
  version := .v4
  source := .list [.v4 (.ofLen 0x0A000000 24)]
  destination := .any
  protocol := .tcp
  ports := .list [.single 22]
  action := .accept
  log := true
  direction := .input (.named "ext0")
  order := 0

def webPacket : Packet := ⟨some "ext0", none, .v4 0x0A000005 0x0A000009, .tcp 80⟩

/-- The packet goes to another port than the rule asks for, and still it is logged. -/
theorem unmatched_logged : Rule.check sshValue = .ok sshRule ∧ sshRule.log = true ∧
    admits (alone sshRule []) webPacket sshRule = false ∧
    ¬ ActsOn (alone sshRule []) webTarget webTarget.logMark sshRule webPacket ∧
    logs (tableOf (alone sshRule []) webTarget) webPacket webTarget.logMark
      (ruleLine webTarget.logMark sshRule) = true := by
  have hcheck : Rule.check sshValue = .ok sshRule := by rfl
  have hrule := Rule.sound_of_check hcheck
  have hs : Resolves (alone sshRule []) sshRule := resolves_of_setUses rfl
  have hmissed : admits (alone sshRule []) webPacket sshRule = false := by decide
  refine ⟨hcheck, rfl, hmissed, ?_, ?_⟩
  · rw [actsOn_iff hrule hs (mem_alone _ _), hmissed]
    decide
  · rw [logs_ruleLine hrule hs]
    decide

end Filter
end TwinWall
