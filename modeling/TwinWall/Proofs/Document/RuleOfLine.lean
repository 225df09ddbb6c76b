import TwinWall.Proofs.Document.Built
import TwinWall.Proofs.Net.Blocks

/-! The rule that a line was made from. The line of a rule with a transport and an address tells all of the
rule but its order. -/
namespace TwinWall
namespace Document

open Net Policy Text

namespace Operand

def addresses : Operand Subnet → AddressMatch
  | set n => .set n
  | one n => .list [n]
  | list l => .list l

def ports : Operand PortEntry → PortMatch
  | set n => .set n
  | one e => .list [e]
  | list l => .list l

end Operand

namespace Clause

def incoming? : Clause → Option String
  | incoming i => some i
  | _ => none

def outgoing? : Clause → Option String
  | outgoing o => some o
  | _ => none

/-- What a side of the header is to match, with its family. -/
def address? (side : Side) : Clause → Option (Family × AddressMatch)
  | address f s o => if s = side then some (f, o.addresses) else none
  | _ => none

def log? : Clause → Option String
  | log mark => some mark
  | _ => none

/-- A transport with its ports. -/
def transport? : Clause → Option (Transport × PortMatch)
  | protocol t => some (t, .list [])
  | port t o => some (t, o.ports)
  | _ => none

def verdict? : Clause → Option Action
  | verdict a => some a
  | _ => none

end Clause

/-- What a rule says of a side. -/
def sideOf (r : Rule) : Side → AddressMatch
  | .source => r.source
  | .destination => r.destination

def protocol? : Transport → Option Protocol
  | .tcp => some .tcp
  | .udp => some .udp
  | .esp => none

def interfaceOf : Option String → Interface
  | some n => .named n
  | none => .any

/-- A chain knows the sides on which its rules hang. -/
def directionOf (c : FilterChain) (incoming outgoing : Option String) : Direction :=
  match c with
  | .input => .input (interfaceOf incoming)
  | .output => .output (interfaceOf outgoing)
  | .forward => .forward (interfaceOf incoming) (interfaceOf outgoing)

/-- The rule of a line in a chain, of order zero. -/
def ruleOf? (c : FilterChain) (l : Line) : Option Rule := do
  let source := l.findSome? (Clause.address? .source)
  let destination := l.findSome? (Clause.address? .destination)
  let version ← (source.or destination).map (·.1)
  let (transport, ports) ← l.findSome? Clause.transport?
  let protocol ← protocol? transport
  let action ← l.findSome? Clause.verdict?
  some
    { version, protocol, ports, action
      source := (source.map (·.2)).getD .any
      destination := (destination.map (·.2)).getD .any
      log := (l.findSome? Clause.log?).isSome
      direction := directionOf c (l.findSome? Clause.incoming?) (l.findSome? Clause.outgoing?)
      order := 0 }

theorem directionOf_chain (d : Direction) : directionOf d.chain (d.incoming?.bind Interface.name?)
    (d.outgoing?.bind Interface.name?) = d := by
  cases d with
  | input i => cases i <;> rfl
  | output o => cases o <;> rfl
  | forward i o => cases i <;> cases o <;> rfl

/-- What a side of a rule puts into its clause, if it has one. -/
def sideOperand? : AddressMatch → Option (Operand Subnet)
  | .any => none
  | .set n => some (.set n)
  | .list l => some (.list l)

theorem addressClause_eq (f : Family) (s : Side) (a : AddressMatch) :
    addressClause f s a = ((sideOperand? a).map (Clause.address f s)).toList := by
  cases a <;> rfl

theorem getD_addresses (a : AddressMatch) : ((sideOperand? a).map Operand.addresses).getD .any = a := by
  cases a <;> rfl

/-- What is in neither form of the clause is not in it. -/
theorem portClause_none {α : Type} {f : Clause → Option α} {t : Transport}
    (hport : ∀ o, f (.port t o) = none) (hprotocol : f (.protocol t) = none) (p : PortMatch) :
    f (portClause t p) = none := by
  cases p with
  | set n => exact hport _
  | list l =>
    cases l with
    | nil => exact hprotocol
    | cons e l => exact hport _

theorem transport?_portClause (t : Transport) (p : PortMatch) :
    (portClause t p).transport? = some (t, p) := by
  cases p with
  | set n => rfl
  | list l => cases l <;> rfl

theorem findSome?_toList_map {α β γ : Type} (f : β → Option γ) (g : α → β) (o : Option α) :
    (o.map g).toList.findSome? f = o.bind fun x => f (g x) := by
  cases o <;> simp

variable {mark : String} {r s : Rule} {t : Transport}

theorem exists_transport (h : r.protocol = .tcp ∨ r.protocol = .udp) :
    ∃ t, protocol? t = some r.protocol := by
  rcases h with h | h
  · exact ⟨.tcp, by rw [h, protocol?]⟩
  · exact ⟨.udp, by rw [h, protocol?]⟩

theorem verdictClauses_of_transport (h : protocol? t = some r.protocol) :
    verdictClauses r = [portClause t r.ports, .verdict r.action] := by
  cases t with
  | tcp =>
    have hp : r.protocol = .tcp := (Option.some.inj h).symm
    simp [verdictClauses, jumpChain?, hp, jumpKind?]
  | udp =>
    have hp : r.protocol = .udp := (Option.some.inj h).symm
    simp [verdictClauses, jumpChain?, hp, jumpKind?]
  | esp => cases h

/-- What is looked for in the line of a rule is looked for in its parts, one after the other. -/
theorem findSome?_ruleLine {α : Type} (h : protocol? t = some r.protocol) (f : Clause → Option α) :
    (ruleLine mark r).findSome? f =
      ((r.direction.incoming?.bind Interface.name?).bind fun i => f (.incoming i)).or
      (((r.direction.outgoing?.bind Interface.name?).bind fun o => f (.outgoing o)).or
      (((sideOperand? r.source).bind fun o => f (.address r.version .source o)).or
      (((sideOperand? r.destination).bind fun o => f (.address r.version .destination o)).or
      ((if r.log then f (.log mark) else none).or
      ((f (portClause t r.ports)).or (f (.verdict r.action))))))) := by
  have hlog : (if r.log then [Clause.log mark] else []).findSome? f =
      if r.log then f (.log mark) else none := by
    cases r.log <;> simp
  have hverdict : [portClause t r.ports, .verdict r.action].findSome? f =
      (f (portClause t r.ports)).or (f (.verdict r.action)) := by
    cases hport : f (portClause t r.ports) <;> cases haction : f (.verdict r.action) <;>
      simp [hport, haction]
  simp only [ruleLine, conditions, verdictClauses_of_transport h, addressClause_eq, incomingClause,
    outgoingClause, List.findSome?_append, findSome?_toList_map, hlog, hverdict, Option.or_assoc]

theorem incoming?_ruleLine (h : protocol? t = some r.protocol) :
    (ruleLine mark r).findSome? Clause.incoming? = r.direction.incoming?.bind Interface.name? := by
  have hport := portClause_none (f := Clause.incoming?) (t := t) (fun _ => rfl) rfl r.ports
  rw [findSome?_ruleLine h, hport]
  simp [Clause.incoming?]

theorem outgoing?_ruleLine (h : protocol? t = some r.protocol) :
    (ruleLine mark r).findSome? Clause.outgoing? = r.direction.outgoing?.bind Interface.name? := by
  have hport := portClause_none (f := Clause.outgoing?) (t := t) (fun _ => rfl) rfl r.ports
  rw [findSome?_ruleLine h, hport]
  simp [Clause.outgoing?]

theorem address?_ruleLine (h : protocol? t = some r.protocol) (side : Side) :
    (ruleLine mark r).findSome? (Clause.address? side) =
      (sideOperand? (sideOf r side)).map fun o => (r.version, o.addresses) := by
  have hport := portClause_none (f := Clause.address? side) (t := t) (fun _ => rfl) rfl r.ports
  rw [findSome?_ruleLine h, hport, Option.map_eq_bind]
  cases side <;> simp [Clause.address?, sideOf, Function.comp_def]

theorem log?_ruleLine (h : protocol? t = some r.protocol) :
    (ruleLine mark r).findSome? Clause.log? = if r.log then some mark else none := by
  have hport := portClause_none (f := Clause.log?) (t := t) (fun _ => rfl) rfl r.ports
  rw [findSome?_ruleLine h, hport]
  simp [Clause.log?]

theorem transport?_ruleLine (h : protocol? t = some r.protocol) :
    (ruleLine mark r).findSome? Clause.transport? = some (t, r.ports) := by
  rw [findSome?_ruleLine h, transport?_portClause]
  simp [Clause.transport?]

theorem verdict?_ruleLine (h : protocol? t = some r.protocol) :
    (ruleLine mark r).findSome? Clause.verdict? = some r.action := by
  have hport := portClause_none (f := Clause.verdict?) (t := t) (fun _ => rfl) rfl r.ports
  rw [findSome?_ruleLine h, hport]
  simp [Clause.verdict?]

/-- The version is told by the clause of whichever side has one. -/
theorem version_of_sides (h : r.source ≠ .any ∨ r.destination ≠ .any) :
    (((sideOperand? r.source).map fun o => (r.version, o.addresses)).or
      ((sideOperand? r.destination).map fun o => (r.version, o.addresses))).map (·.1) =
      some r.version := by
  cases hs : r.source <;> cases hd : r.destination <;> simp_all [sideOperand?]

theorem ruleOf?_ruleLine (hp : r.protocol = .tcp ∨ r.protocol = .udp)
    (ha : r.source ≠ .any ∨ r.destination ≠ .any) :
    ruleOf? r.chain (ruleLine mark r) = some { r with order := 0 } := by
  obtain ⟨t, ht⟩ := exists_transport hp
  have hlog : (if r.log then some mark else none).isSome = r.log := by
    cases r.log <;> rfl
  have haddress : ∀ a,
      (((sideOperand? a).map fun o => (r.version, o.addresses)).map (·.2)).getD .any = a := by
    intro a
    rw [Option.map_map]
    exact getD_addresses a
  simp only [ruleOf?, incoming?_ruleLine ht, outgoing?_ruleLine ht, address?_ruleLine ht,
    log?_ruleLine ht, transport?_ruleLine ht, verdict?_ruleLine ht, sideOf, version_of_sides ha, haddress,
    hlog, Option.bind_eq_bind, Option.bind_some, ht, Rule.chain, directionOf_chain]

/-- Rules of one chain that have the same line differ at most in their order. -/
theorem rule_eq_of_text {v w : Json.Value} {u : Target} (hr : Rule.check v = .ok r)
    (hs : Rule.check w = .ok s) (hchain : r.chain = s.chain)
    (hrp : r.protocol = .tcp ∨ r.protocol = .udp) (hsp : s.protocol = .tcp ∨ s.protocol = .udp)
    (hra : r.source ≠ .any ∨ r.destination ≠ .any) (hsa : s.source ≠ .any ∨ s.destination ≠ .any)
    (hu : u.check = .ok ())
    (h : (ruleLine u.logMark r).text = (ruleLine u.logMark s).text) :
    r = { s with order := r.order } := by
  obtain ⟨hn, ht⟩ := isName_of_targetCheck hu
  have hmark := isPlain_logMark hn ht
  have hline : ruleLine u.logMark r = ruleLine u.logMark s := by
    have hread := Line.line?_words (readable_ruleLine hmark (Rule.sound_of_check hr))
    rw [h, Line.line?_words (readable_ruleLine hmark (Rule.sound_of_check hs))] at hread
    exact (Option.some.inj hread).symm
  have hrule : ruleOf? r.chain (ruleLine u.logMark r) = some { r with order := 0 } :=
    ruleOf?_ruleLine hrp hra
  rw [hchain, hline, ruleOf?_ruleLine hsp hsa, Option.some.injEq] at hrule
  calc r = { { r with order := 0 } with order := r.order } := rfl
    _ = { { s with order := 0 } with order := r.order } := by rw [hrule]
    _ = { s with order := r.order } := rfl

/-- A rule, and the same rule written otherwise and with another order. -/
def mailValue : Json.Value :=
  .record [("action", .string "accept"), ("version", .ofNat 4), ("protocol", .string "tcp"),
    ("source", .array [.string "10.0.0.0/24"]), ("destination", .array [.string "any"]),
    ("port", .array [.ofNat 25, .string "465-587"]), ("log", .bool true), ("iiface", .string "ext0")]

def mailAgainValue : Json.Value :=
  .record [("action", .string "accept"), ("version", .string " 4"), ("protocol", .string "tcp"),
    ("source", .array [.string "10.0.0.0/255.255.255.0"]), ("destination", .array [.string "any"]),
    ("port", .array [.string "25", .string "0465 - 587"]), ("log", .bool true),
    ("iiface", .string "ext0"), ("oiface", .string "none"), ("order", .ofInt (-3))]

def mailRule : Rule where
  version := .v4
  source := .list [.v4 (.ofLen 0x0A000000 24)]
  destination := .any
  protocol := .tcp
  ports := .list [.single 25, .range 465 587]
  action := .accept
  log := true
  direction := .input (.named "ext0")
  order := 0

theorem rule_eq_of_text_mail : Rule.check mailValue = .ok mailRule ∧
    Rule.check mailAgainValue = .ok { mailRule with order := -3 } ∧ webTarget.check = .ok () ∧
    (ruleLine webTarget.logMark mailRule).text =
      (ruleLine webTarget.logMark { mailRule with order := -3 }).text ∧
    mailRule = { { mailRule with order := -3 } with order := mailRule.order } := by
  have hmail : Rule.check mailValue = .ok mailRule := by rfl
  have hagain : Rule.check mailAgainValue = .ok { mailRule with order := -3 } :=
    by rfl
  have hweb : webTarget.check = .ok () := by rfl
  have hlist : mailRule.source ≠ .any := by decide
  exact ⟨hmail, hagain, hweb, rfl,
    rule_eq_of_text hmail hagain rfl (Or.inl rfl) (Or.inl rfl) (Or.inl hlist) (Or.inl hlist) hweb rfl⟩

end Document
end TwinWall
