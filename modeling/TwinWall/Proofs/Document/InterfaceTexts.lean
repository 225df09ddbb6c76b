import TwinWall.Proofs.Document.Determined
import TwinWall.Proofs.Document.RuleOfLine
import TwinWall.Proofs.Policy.Accounted

/-! What the text of an interface is taken for. A rule and a mapping read all texts alike but two: the words
that stand for no interface and for every interface in a rule are names of interfaces in a mapping. -/
namespace TwinWall
namespace Document

open Json Policy

/-- The interface by which packets come in, or the one by which they leave. -/
inductive Way where
  | incoming
  | outgoing
deriving DecidableEq

namespace Way

/-- The field of a rule. -/
def field : Way → String
  | incoming => "iiface"
  | outgoing => "oiface"

def other : Way → Way
  | incoming => outgoing
  | outgoing => incoming

/-- What a rule hangs on. -/
def side? : Way → Direction → Option Interface
  | incoming => Direction.incoming?
  | outgoing => Direction.outgoing?

/-- The interface of a mapping is on the side of the public network. -/
def ofMapping : MappingDirection → Way
  | .destination => incoming
  | .source => outgoing

def clause : Way → String → Clause
  | incoming => .incoming
  | outgoing => .outgoing

def name? : Way → Clause → Option String
  | incoming => Clause.incoming?
  | outgoing => Clause.outgoing?

/-- The interfaces that a line names. -/
def names (w : Way) (l : Line) : List String := l.filterMap w.name?

end Way

/-- What the text of an interface is taken for. -/
inductive Reading where
  | unattached
  | every
  | named
  | refused
deriving DecidableEq

/-- The object has what its check asks for once the field is set. -/
def OtherwiseValid {α : Type} (check : Value → Checked α) (field : String) (m : Members) : Prop :=
  ∃ v x, check (.object (m.insert field v)) = .ok x

def ruleWith (w : Way) (m : Members) (s : String) : Value := .object (m.insert w.field (.string s))

def mappingWith (m : Members) (s : String) : Value := .object (m.insert "iface" (.string s))

/-- The rule is accepted with this side, and its line names these interfaces for it. -/
def RuleGets (w : Way) (m : Members) (s : String) (side : Option Interface) (names : List String) : Prop :=
  ∃ r, Rule.check (ruleWith w m s) = .ok r ∧ w.side? r.direction = side ∧
    ∀ mark, w.names (ruleLine mark r) = names

/-- A rule that hangs on no interface at all is refused for that, and not for its text. -/
def RuleTakes (w : Way) (m : Members) (s : String) : Reading → Prop
  | .unattached => RuleGets w m s none [] ∨
      ∃ i o, Rule.check (ruleWith w m s) = .error [.unattached i o]
  | .every => RuleGets w m s (some .any) []
  | .named => RuleGets w m s (some (.named s)) [s]
  | .refused => ∃ e, Rule.check (ruleWith w m s) = .error [.inField w.field (.name e)]

def MappingGets (m : Members) (s : String) (interface : Option String) (names : List String) : Prop :=
  ∃ k, Mapping.check (mappingWith m s) = .ok k ∧ k.interface = interface ∧
    ∀ w : Way, w.names (mappingLine k) = if w = .ofMapping k.direction then names else []

/-- A mapping that hangs on no interface is one for every interface. -/
def MappingTakes (m : Members) (s : String) : Reading → Prop
  | .unattached => MappingGets m s none []
  | .every => MappingGets m s none []
  | .named => MappingGets m s (some s) [s]
  | .refused => ∃ e, Mapping.check (mappingWith m s) = .error [.inField "iface" (.name e)]

/-- A rule and a mapping take the text for the same. -/
def TakenAlike (w : Way) (m k : Members) (s : String) : Prop :=
  ∃ x, RuleTakes w m s x ∧ MappingTakes k s x

/-- What a text is taken for that has to be a name. -/
def nameReading (s : String) : Reading :=
  if (checkInterface s).toOption.isSome then .named else .refused

section Names

variable {w : Way}

theorem mem_names {n : String} {l : Line} : n ∈ w.names l ↔ w.clause n ∈ l := by
  have hname : ∀ c, w.name? c = some n ↔ c = w.clause n := by
    intro c
    cases w <;> cases c <;>
      simp [Way.name?, Way.clause, Clause.incoming?, Clause.outgoing?]
  simp [Way.names, hname]

theorem names_append (w : Way) (l m : Line) : w.names (l ++ m) = w.names l ++ w.names m :=
  List.filterMap_append

theorem names_addressClause (w : Way) (f : Net.Family) (s : Side) (a : AddressMatch) :
    w.names (addressClause f s a) = [] := by
  cases w <;> cases a <;> rfl

theorem names_verdictClauses (w : Way) (r : Rule) : w.names (verdictClauses r) = [] := by
  have hname : ∀ c, (∀ n, c ≠ .incoming n ∧ c ≠ .outgoing n) → w.name? c = none := by
    intro c hc
    cases w <;> cases c <;> simp_all [Way.name?, Clause.incoming?, Clause.outgoing?]
  have hport : ∀ t, w.name? (portClause t r.ports) = none := by
    intro t
    cases w with
    | incoming => exact portClause_none (fun _ => rfl) rfl r.ports
    | outgoing => exact portClause_none (fun _ => rfl) rfl r.ports
  rw [verdictClauses]
  split
  · simp [Way.names, hname]
  · split <;> simp [Way.names, hname, hport]

theorem names_logClause (w : Way) (r : Rule) (mark : String) :
    w.names (if r.log then [.log mark] else []) = [] := by
  cases w <;> cases r.log <;> rfl

/-- The clause of one side names no interface for the other. -/
theorem names_sideClause (w v : Way) (o : Option String) :
    w.names (o.map v.clause).toList = if w = v then o.toList else [] := by
  cases w <;> cases v <;> cases o <;> rfl

theorem names_ruleLine (w : Way) (mark : String) (r : Rule) :
    w.names (ruleLine mark r) = ((w.side? r.direction).bind Interface.name?).toList := by
  have hincoming : w.names (incomingClause r.direction) =
      if w = .incoming then (r.direction.incoming?.bind Interface.name?).toList else [] :=
    names_sideClause w .incoming _
  have houtgoing : w.names (outgoingClause r.direction) =
      if w = .outgoing then (r.direction.outgoing?.bind Interface.name?).toList else [] :=
    names_sideClause w .outgoing _
  simp only [ruleLine, conditions, names_append, names_addressClause, names_logClause,
    names_verdictClauses, List.append_nil, hincoming, houtgoing]
  cases w <;> simp [Way.side?]

theorem names_mappingLine (w : Way) (k : Mapping) :
    w.names (mappingLine k) = if w = .ofMapping k.direction then k.interface.toList else [] := by
  obtain ⟨d, outside, inside, interface⟩ := k
  cases w <;> cases d <;> cases interface <;> rfl

theorem names_body (w : Way) (j : JumpChain) : ∀ l ∈ j.body, w.names l = [] := by
  obtain ⟨kind, action⟩ := j
  cases w <;> cases kind <;> simp [JumpChain.body, Way.names, Way.name?, Clause.incoming?, Clause.outgoing?]

end Names

section Rules

variable {m m' : Members} {w : Way} {r : Rule} {s : String}

theorem given?_insert_of_ne {f field : String} (h : f ≠ field) (v : Value) :
    given? (m.insert field v) f = given? m f := by
  rw [given?, given?, Members.get?_insert_of_ne h]

theorem given?_insert_text (field s : String) :
    given? (m.insert field (.string s)) field = some (.string s) := by
  rw [given?, Members.get?_insert_self]

/-- Of a rule nothing but its direction comes from the fields of its interfaces. -/
theorem ofMembers_of_same (hr : Rule.ofMembers m = .ok r)
    (h : ∀ f, f ≠ "iiface" → f ≠ "oiface" → given? m' f = given? m f) :
    Rule.ofMembers m' = (Rule.directionOf m').map fun d => { r with direction := d } := by
  obtain ⟨parts, hparts, rfl⟩ := map_eq_ok.1 hr
  obtain ⟨haction, hparts⟩ := Checked.both_eq_ok.1 hparts
  obtain ⟨hversion, hparts⟩ := Checked.both_eq_ok.1 hparts
  obtain ⟨hprotocol, hparts⟩ := Checked.both_eq_ok.1 hparts
  obtain ⟨hsource, hparts⟩ := Checked.both_eq_ok.1 hparts
  obtain ⟨hdestination, hparts⟩ := Checked.both_eq_ok.1 hparts
  obtain ⟨hports, hparts⟩ := Checked.both_eq_ok.1 hparts
  obtain ⟨-, hparts⟩ := Checked.both_eq_ok.1 hparts
  obtain ⟨hlog, horder⟩ := Checked.both_eq_ok.1 hparts
  have hversion' : Rule.versionOf m' = Rule.versionOf m := by
    simp only [Rule.versionOf, h "version" (by decide) (by decide)]
  have haddresses : ∀ v f, f ≠ "iiface" → f ≠ "oiface" →
      Rule.addressesOf v m' f = Rule.addressesOf v m f := by
    intro v f hi ho
    simp only [Rule.addressesOf, requiredList, h f hi ho]
  have hports' : Rule.portsOf m' = Rule.portsOf m := by
    simp only [Rule.portsOf, h "port" (by decide) (by decide)]
  have hlog' : Rule.logOf m' = Rule.logOf m := by
    simp only [Rule.logOf, h "log" (by decide) (by decide)]
  have horder' : Rule.orderOf m' = Rule.orderOf m := by
    simp only [Rule.orderOf, h "order" (by decide) (by decide)]
  have hword : ∀ {α : Type} (ofText? : String → Option α) (allowed f : String), f ≠ "iiface" →
      f ≠ "oiface" → requiredWord ofText? allowed m' f = requiredWord ofText? allowed m f := by
    intro α ofText? allowed f hi ho
    simp only [requiredWord, requiredString, h f hi ho]
  rw [Rule.ofMembers, hword _ _ "action" (by decide) (by decide),
    hword _ _ "protocol" (by decide) (by decide), hversion', haddresses _ "source" (by decide) (by decide),
    haddresses _ "destination" (by decide) (by decide), hports', hlog', horder']
  simp only [haction, hversion, hprotocol, hsource, hdestination, hports, hlog, horder]
  cases Rule.directionOf m' <;> rfl

theorem interfaceOf_insert_other (w : Way) (m : Members) (v : Value) :
    Rule.interfaceOf (m.insert w.field v) w.other.field = Rule.interfaceOf m w.other.field := by
  have hne : w.other.field ≠ w.field := by cases w <;> decide
  simp only [Rule.interfaceOf, given?_insert_of_ne hne]

/-- A direction has on each side what its field was read as. -/
theorem interfaceOf_of_directionOf {d : Direction} (h : Rule.directionOf m = .ok d) (w : Way) :
    Rule.interfaceOf m w.field = .ok (w.side? d) := by
  rw [Rule.directionOf] at h
  split at h
  · cases h
  all_goals
    rename_i hboth
    obtain ⟨hi, ho⟩ := Checked.both_eq_ok.1 hboth
    cases h
  all_goals cases w
  all_goals first | exact Checked.one_eq_ok.1 hi | exact Checked.one_eq_ok.1 ho

theorem directionOf_of_ofMembers (h : Rule.ofMembers m = .ok r) :
    Rule.directionOf m = .ok r.direction := by
  have hsame := ofMembers_of_same h fun _ _ _ => rfl
  obtain ⟨d, hd, hr⟩ := map_eq_ok.1 (hsame.symm.trans h)
  rw [hd, ← hr]

/-- What comes of a check that has read a side, where nothing else is wrong but that no side may be left. -/
def Follows {α : Type} (side? : α → Option Interface) (result : Checked α) :
    Except Defect (Option Interface) → Prop
  | .error e => result = .error [e]
  | .ok (some i) => ∃ x, result = .ok x ∧ side? x = some i
  | .ok none => (∃ x, result = .ok x ∧ side? x = none) ∨ ∃ i o, result = .error [.unattached i o]

theorem follows_directionOf {o : Option Interface} (ho : Rule.interfaceOf m w.other.field = .ok o) :
    Follows w.side? (Rule.directionOf m) (Rule.interfaceOf m w.field) := by
  cases w with
  | incoming =>
    simp only [Way.field, Way.other] at ho ⊢
    rcases hi : Rule.interfaceOf m "iiface" with e | _ | i <;> cases o <;>
      simp [Follows, Rule.directionOf, Checked.both, Checked.one, ho, hi, Way.side?, Direction.incoming?]
  | outgoing =>
    simp only [Way.field, Way.other] at ho ⊢
    rcases hi : Rule.interfaceOf m "oiface" with e | _ | i <;> cases o <;>
      simp [Follows, Rule.directionOf, Checked.both, Checked.one, ho, hi, Way.side?, Direction.outgoing?]

theorem Follows.map {α β : Type} {side? : α → Option Interface} {side?' : β → Option Interface}
    {result : Checked α} {read : Except Defect (Option Interface)} (h : Follows side? result read)
    {f : α → β} (hf : ∀ x, side?' (f x) = side? x) : Follows side?' (result.map f) read := by
  rcases read with e | _ | i
  · rw [Follows] at h
    rw [h, Follows, Except.map]
  · rcases h with ⟨x, rfl, hx⟩ | ⟨i, o, rfl⟩
    · exact Or.inl ⟨f x, rfl, (hf x).trans hx⟩
    · exact Or.inr ⟨i, o, rfl⟩
  · obtain ⟨x, rfl, hx⟩ := h
    exact ⟨f x, rfl, (hf x).trans hx⟩

/-- With its other fields right, a rule comes to what its text is read as. -/
theorem follows_ruleWith (hm : OtherwiseValid Rule.check w.field m) (s : String) :
    Follows (fun r => w.side? r.direction) (Rule.check (ruleWith w m s))
      (Rule.interfaceOf (m.insert w.field (.string s)) w.field) := by
  obtain ⟨v, r, hr⟩ := hm
  have hmembers : Rule.ofMembers (m.insert w.field v) = .ok r := hr
  have hother : Rule.interfaceOf (m.insert w.field (.string s)) w.other.field =
      .ok (w.other.side? r.direction) := by
    rw [interfaceOf_insert_other, ← interfaceOf_insert_other w m v]
    exact interfaceOf_of_directionOf (directionOf_of_ofMembers hmembers) w.other
  have hcheck : Rule.check (ruleWith w m s) =
      (Rule.directionOf (m.insert w.field (.string s))).map fun d => { r with direction := d } := by
    refine ofMembers_of_same hmembers fun f hi ho => ?_
    have hf : f ≠ w.field := by cases w <;> assumption
    rw [given?_insert_of_ne hf, given?_insert_of_ne hf]
  rw [hcheck]
  exact (follows_directionOf hother).map fun _ => rfl

/-- What the check of a rule takes a text for. -/
def ruleReading (s : String) : Reading :=
  if s ∈ Rule.unsetWords then .unattached
  else if s = anyWord then .every
  else nameReading s

theorem ruleTakes_iff (hm : OtherwiseValid Rule.check w.field m) (s : String) (x : Reading) :
    RuleTakes w m s x ↔ x = ruleReading s := by
  have hfollows := follows_ruleWith hm s
  rw [Rule.interfaceOf, given?_insert_text] at hfollows
  rw [ruleReading]
  by_cases hunset : s ∈ Rule.unsetWords
  · simp only [if_pos hunset] at hfollows ⊢
    rcases hfollows with ⟨r, hr, hside⟩ | ⟨i, o, hr⟩
    · cases x <;> simp [RuleTakes, RuleGets, hr, hside, names_ruleLine]
    · cases x <;> simp [RuleTakes, RuleGets, hr]
  · simp only [if_neg hunset] at hfollows ⊢
    by_cases hany : s = anyWord
    · simp only [if_pos hany] at hfollows ⊢
      obtain ⟨r, hr, hside⟩ := hfollows
      cases x <;> simp [RuleTakes, RuleGets, hr, hside, names_ruleLine, Interface.name?]
    · simp only [if_neg hany] at hfollows ⊢
      cases hs : checkInterface s with
      | error e =>
        rw [hs] at hfollows
        have hr : Rule.check (ruleWith w m s) = .error [.inField w.field (.name e)] := hfollows
        cases x <;> simp [RuleTakes, RuleGets, hr, nameReading, hs, Except.toOption]
      | ok n =>
        obtain rfl := eq_of_checkInterface hs
        rw [hs] at hfollows
        obtain ⟨r, hr, hside⟩ := hfollows
        cases x <;> simp [RuleTakes, RuleGets, hr, hside, names_ruleLine, Interface.name?, nameReading, hs,
          Except.toOption]

end Rules

section Mappings

variable {m : Members} {s : String}

/-- With its other fields right, a mapping comes to what its text is read as. -/
theorem check_mappingWith (hm : OtherwiseValid Mapping.check "iface" m) : ∃ k : Mapping, ∀ s,
    Mapping.check (mappingWith m s) =
      (Checked.one (Mapping.interfaceOf (m.insert "iface" (.string s)))).map
        fun i => { k with interface := i } := by
  obtain ⟨v, k, hk⟩ := hm
  refine ⟨k, fun s => ?_⟩
  have hmembers : Mapping.ofMembers (m.insert "iface" v) = .ok k := hk
  obtain ⟨parts, hparts, rfl⟩ := map_eq_ok.1 hmembers
  obtain ⟨hdirection, hparts⟩ := Checked.both_eq_ok.1 hparts
  obtain ⟨houtside, hparts⟩ := Checked.both_eq_ok.1 hparts
  obtain ⟨hinside, -⟩ := Checked.both_eq_ok.1 hparts
  have hgiven : ∀ f, f ≠ "iface" →
      requiredString (m.insert "iface" (.string s)) f = requiredString (m.insert "iface" v) f := by
    intro f hf
    simp only [requiredString, given?_insert_of_ne hf]
  have hcheck : Mapping.check (mappingWith m s) = Mapping.ofMembers (m.insert "iface" (.string s)) := rfl
  rw [Checked.one_eq_ok, requiredWord, ← hgiven _ (by decide)] at hdirection
  rw [Checked.one_eq_ok, Mapping.outsideOf, Mapping.networkOf, ← hgiven _ (by decide)] at houtside
  rw [Checked.one_eq_ok, Mapping.insideOf, Mapping.networkOf, ← hgiven _ (by decide)] at hinside
  rw [hcheck, Mapping.ofMembers, requiredWord, hdirection, Mapping.outsideOf, Mapping.networkOf, houtside,
    Mapping.insideOf, Mapping.networkOf, hinside]
  cases Mapping.interfaceOf (m.insert "iface" (.string s)) <;> rfl

/-- What the check of a mapping takes a text for. -/
def mappingReadings (s : String) : List Reading :=
  if s = "" then [.unattached, .every] else [nameReading s]

theorem mappingTakes_iff (hm : OtherwiseValid Mapping.check "iface" m) (s : String) (x : Reading) :
    MappingTakes m s x ↔ x ∈ mappingReadings s := by
  obtain ⟨k, hk⟩ := check_mappingWith hm
  have hcheck := hk s
  rw [Mapping.interfaceOf, given?_insert_text] at hcheck
  rw [mappingReadings]
  by_cases hempty : s = ""
  · simp only [if_pos hempty] at hcheck ⊢
    have hk : Mapping.check (mappingWith m s) = .ok { k with interface := none } := hcheck
    cases x <;> simp [MappingTakes, MappingGets, hk, names_mappingLine]
  · simp only [if_neg hempty] at hcheck ⊢
    cases hs : checkInterface s with
    | error e =>
      rw [hs] at hcheck
      have hk : Mapping.check (mappingWith m s) = .error [.inField "iface" (.name e)] := hcheck
      cases x <;> simp [MappingTakes, MappingGets, hk, nameReading, hs, Except.toOption]
    | ok n =>
      obtain rfl := eq_of_checkInterface hs
      rw [hs] at hcheck
      have hk : Mapping.check (mappingWith m n) = .ok { k with interface := some n } := hcheck
      cases x <;> simp [MappingTakes, MappingGets, hk, names_mappingLine, nameReading, hs, Except.toOption]

end Mappings

/-- The two words of rules are sound names. -/
theorem nameReading_words : nameReading "any" = .named ∧ nameReading "none" = .named := by
  decide +kernel

theorem ruleReading_mem_mappingReadings {s : String} :
    ruleReading s ∈ mappingReadings s ↔ s ∉ ["any", "none"] := by
  by_cases hempty : s = ""
  · subst hempty
    decide
  by_cases hany : s = "any"
  · subst hany
    simp [ruleReading, mappingReadings, Rule.unsetWords, anyWord, nameReading_words]
  by_cases hnone : s = "none"
  · subst hnone
    simp [ruleReading, mappingReadings, Rule.unsetWords, nameReading_words]
  simp [ruleReading, mappingReadings, Rule.unsetWords, anyWord, hempty, hany, hnone]

section Documents

variable {p : Ruleset} {t : Target} {w : Way} {n : String}

theorem lines_tableOf (p : Ruleset) (t : Target) : (tableOf p t).chains.flatMap Chain.lines =
    (jumpChains p.rules).flatMap JumpChain.body ++ mappingLines .destination p.mappings ++
      FilterChain.all.flatMap (fun c => chainLines t.logMark c p.rules) ++
      mappingLines .source p.mappings := by
  simp only [tableOf, List.flatMap_append, lines_mappingChain, List.flatMap_map]
  rfl

theorem mem_mappingLines {l : Line} {ms : List Mapping} :
    (∃ d, l ∈ mappingLines d ms) ↔ ∃ k ∈ ms, l = mappingLine k := by
  simp [mappingLines, eq_comm]

theorem mem_chainLines {l : Line} {mark : String} {rules : List Rule} :
    (∃ c, l ∈ chainLines mark c rules) ↔ ∃ r ∈ rules, l = ruleLine mark r := by
  simp [chainLines, rulesOf, eq_comm]

/-- The lines of a table, by what they were made for. -/
theorem mem_lines_tableOf {l : Line} : (∃ c ∈ (tableOf p t).chains, l ∈ c.lines) ↔
    (∃ j ∈ jumpChains p.rules, l ∈ j.body) ∨ (∃ r ∈ p.rules, l = ruleLine t.logMark r) ∨
      ∃ k ∈ p.mappings, l = mappingLine k := by
  have hall : ∀ c, c ∈ FilterChain.all := by
    intro c
    cases c <;> decide
  rw [← List.mem_flatMap, lines_tableOf, ← mem_chainLines, ← mem_mappingLines]
  simp only [List.mem_append, List.mem_flatMap, hall, true_and]
  constructor
  · rintro (((hbody | hdestination) | hrule) | hsource)
    · exact Or.inl hbody
    · exact Or.inr (Or.inr ⟨.destination, hdestination⟩)
    · exact Or.inr (Or.inl hrule)
    · exact Or.inr (Or.inr ⟨.source, hsource⟩)
  · rintro (hbody | hrule | ⟨d, hmapping⟩)
    · exact Or.inl (Or.inl (Or.inl hbody))
    · exact Or.inl (Or.inr hrule)
    · cases d with
      | destination => exact Or.inl (Or.inl (Or.inr hmapping))
      | source => exact Or.inr hmapping

/-- Some line of the table names the interface. -/
def Table.Names (u : Table) (w : Way) (n : String) : Prop :=
  ∃ c ∈ u.chains, ∃ l ∈ c.lines, w.clause n ∈ l

/-- Interfaces are named for rules and for mappings, and for nothing else. -/
theorem names_tableOf : (tableOf p t).Names w n ↔
    (∃ r ∈ p.rules, w.side? r.direction = some (.named n)) ∨
      ∃ k ∈ p.mappings, Way.ofMapping k.direction = w ∧ k.interface = some n := by
  have hrule : ∀ r, w.clause n ∈ ruleLine t.logMark r ↔ w.side? r.direction = some (.named n) := by
    intro r
    rw [← mem_names, names_ruleLine, Option.mem_toList, Option.bind_eq_some_iff]
    constructor
    · rintro ⟨i, hi, hn⟩
      cases i with
      | any => cases hn
      | named m =>
        cases hn
        exact hi
    · exact fun h => ⟨_, h, rfl⟩
  have hmapping : ∀ k, w.clause n ∈ mappingLine k ↔
      Way.ofMapping k.direction = w ∧ k.interface = some n := by
    intro k
    rw [← mem_names, names_mappingLine]
    by_cases hw : w = .ofMapping k.direction
    · simp [hw]
    · simp [hw, Ne.symm hw]
  have hlines : (tableOf p t).Names w n ↔
      ∃ l, (∃ c ∈ (tableOf p t).chains, l ∈ c.lines) ∧ w.clause n ∈ l :=
    ⟨fun ⟨c, hc, l, hl, h⟩ => ⟨l, ⟨c, hc, hl⟩, h⟩,
      fun ⟨l, ⟨c, hc, hl⟩, h⟩ => ⟨c, hc, l, hl, h⟩⟩
  rw [hlines]
  constructor
  · rintro ⟨l, hl, hn⟩
    rcases mem_lines_tableOf.1 hl with ⟨j, -, hj⟩ | ⟨r, hr, rfl⟩ | ⟨k, hk, rfl⟩
    · rw [← mem_names, names_body w j l hj] at hn
      cases hn
    · exact Or.inl ⟨r, hr, (hrule r).1 hn⟩
    · exact Or.inr ⟨k, hk, (hmapping k).1 hn⟩
  · rintro (⟨r, hr, hn⟩ | ⟨k, hk, hn⟩)
    · exact ⟨_, mem_lines_tableOf.2 (Or.inr (Or.inl ⟨r, hr, rfl⟩)), (hrule r).2 hn⟩
    · exact ⟨_, mem_lines_tableOf.2 (Or.inr (Or.inr ⟨k, hk, rfl⟩)), (hmapping k).2 hn⟩

/-- The two words are no names of interfaces in a rule. -/
theorem side?_ne_of_check {v : Value} {r : Rule} (h : Rule.check v = .ok r) (hn : n ∈ ["any", "none"])
    (w : Way) : w.side? r.direction ≠ some (.named n) := by
  obtain ⟨m, hm, h⟩ := bind_eq_ok.1 h
  have hread := interfaceOf_of_directionOf (directionOf_of_ofMembers h) w
  intro hside
  rw [hside] at hread
  have hname : IsInterfaceName n := (Rule.kept_of_interfaceOf hread).2
  refine hname.not_special ?_
  rcases List.mem_pair.1 hn with rfl | rfl <;> decide

theorem interface_eq_some_iff {v : Value} {k : Mapping} (h : Mapping.check v = .ok k) (hn : n ≠ "") :
    k.interface = some n ↔ v.get? "iface" = some (.string n) := by
  obtain ⟨m, hm, h⟩ := bind_eq_ok.1 h
  obtain rfl := eq_object_of_membersOf (Checked.one_eq_ok.1 hm)
  obtain ⟨parts, hparts, rfl⟩ := map_eq_ok.1 h
  obtain ⟨-, hparts⟩ := Checked.both_eq_ok.1 hparts
  obtain ⟨-, hparts⟩ := Checked.both_eq_ok.1 hparts
  obtain ⟨-, hinterface⟩ := Checked.both_eq_ok.1 hparts
  have hread := Checked.one_eq_ok.1 hinterface
  rw [Mapping.interfaceOf] at hread
  split at hread
  · rename_i hnone
    have hinterface := (Except.ok.inj hread).symm
    rcases missing_of_given? hnone with hmissing | hmissing <;>
      simp [Value.get?, hmissing, hinterface]
  · rename_i s hs
    rw [Value.get?, get?_of_given? hs]
    split at hread
    · rename_i hempty
      have hinterface := (Except.ok.inj hread).symm
      simp [hinterface, hempty, hn.symm]
    · obtain ⟨n', hn', hinterface⟩ := map_eq_ok.1 (mapError_eq_ok.1 hread)
      obtain rfl := eq_of_checkInterface hn'
      simp [← hinterface]
  · cases hread

/-- A document names one of the two words as an interface just for the mappings that have it for theirs. -/
theorem names_of_build {s : Spec} {d : Document} (h : build s t = .ok d) (hn : n ∈ ["any", "none"]) :
    d.table.Names w n ↔ ∃ v ∈ s.mappings, v.get? "iface" = some (.string n) ∧
      ∃ k, Mapping.check v = .ok k ∧ Way.ofMapping k.direction = w := by
  obtain ⟨p, hbuilt⟩ := built_of_build h
  have hentries := (Spec.accepted_iff.1 hbuilt.checked).toEntries
  have hrules : ¬ ∃ r ∈ p.rules, w.side? r.direction = some (.named n) := by
    rintro ⟨r, hr, hside⟩
    obtain ⟨v, -, hv⟩ := (Batch.mem_iff_of_forall₂ hentries.rules).1 hr
    exact side?_ne_of_check hv hn w hside
  have hne : n ≠ "" := by
    rcases List.mem_pair.1 hn with rfl | rfl <;> decide
  rw [hbuilt.eq, names_tableOf, or_iff_right hrules]
  constructor
  · rintro ⟨k, hk, hway, hinterface⟩
    obtain ⟨v, hv, hcheck⟩ := (Batch.mem_iff_of_forall₂ hentries.mappings).1 hk
    exact ⟨v, hv, (interface_eq_some_iff hcheck hne).1 hinterface, k, hcheck, hway⟩
  · rintro ⟨v, hv, hgiven, k, hcheck, hway⟩
    exact ⟨k, (Batch.mem_iff_of_forall₂ hentries.mappings).2 ⟨v, hv, hcheck⟩, hway,
      (interface_eq_some_iff hcheck hne).2 hgiven⟩

/-- What a rule takes texts for, next to a mapping. -/
structure Taken (w : Way) (m k : Members) : Prop where
  alike : ∀ s, TakenAlike w m k s ↔ s ∉ ["any", "none"]
  any : RuleTakes w m "any" .every ∧ MappingTakes k "any" .named
  none : RuleTakes w m "none" .unattached ∧ MappingTakes k "none" .named

theorem taken_of_valid {m k : Members} (hm : OtherwiseValid Rule.check w.field m)
    (hk : OtherwiseValid Mapping.check "iface" k) : Taken w m k := by
  refine ⟨fun s => ?_, ⟨?_, ?_⟩, ?_, ?_⟩
  · simp only [TakenAlike, ruleTakes_iff hm, mappingTakes_iff hk, exists_eq_left,
      ruleReading_mem_mappingReadings]
  · exact (ruleTakes_iff hm _ _).2 rfl
  · exact (mappingTakes_iff hk _ _).2 (by simp [mappingReadings, nameReading_words])
  · exact (ruleTakes_iff hm _ _).2 rfl
  · exact (mappingTakes_iff hk _ _).2 (by simp [mappingReadings, nameReading_words])

/-- All texts but two are taken alike by rules and mappings. These two stand for every interface and for no
interface in rules, and are names in mappings, where documents show them. -/
theorem interfaceTexts_settled {m k : Members} (hm : OtherwiseValid Rule.check w.field m)
    (hk : OtherwiseValid Mapping.check "iface" k) :
    Taken w m k ∧
    ∀ s t d, build s t = .ok d → ∀ w, ∀ n ∈ ["any", "none"], (d.table.Names w n ↔
      ∃ v ∈ s.mappings, v.get? "iface" = some (.string n) ∧
        ∃ c, Mapping.check v = .ok c ∧ Way.ofMapping c.direction = w) :=
  ⟨taken_of_valid hm hk, fun _ _ _ hd _ _ => names_of_build hd⟩

/-- A rule without its incoming interface, and a mapping without its interface. -/
def loginMembers : Members :=
  .ofList [("action", .string "accept"), ("version", .ofNat 4), ("protocol", .string "tcp"),
    ("source", .array [.string "any"]), ("destination", .array [.string "any"]),
    ("port", .array [.ofNat 22])]

def relayMembers : Members :=
  .ofList [("direction", .string "dnat"), ("public", .string "203.0.113.5"),
    ("private", .string "10.0.0.5")]

def loginRule (incoming : Interface) : Rule where
  version := .v4
  source := .any
  destination := .any
  protocol := .tcp
  ports := .list [.single 22]
  action := .accept
  log := false
  direction := .input incoming
  order := 0

def relayMapping (interface : String) : Mapping where
  direction := .destination
  outside := .ofLen 0xCB007105 32
  inside := .ofLen 0x0A000005 32
  interface := some interface

/-- Both of them for the text that stands for every interface. -/
def everywhereSpec : Spec where
  rules := [ruleWith .incoming loginMembers "any"]
  mappings := [mappingWith relayMembers "any"]

theorem otherwiseValid_login : OtherwiseValid Rule.check Way.incoming.field loginMembers :=
  ⟨.string "ext0", loginRule (.named "ext0"), by rfl⟩

theorem otherwiseValid_relay : OtherwiseValid Mapping.check "iface" relayMembers :=
  ⟨.string "ext0", relayMapping "ext0", by rfl⟩

theorem check_relay : Mapping.check (mappingWith relayMembers "any") = .ok (relayMapping "any") := by
  rfl

theorem exists_everywhereDocument : ∃ d, build everywhereSpec webTarget = .ok d := by
  have hsome : (build everywhereSpec webTarget).toOption.isSome = true := by decide +kernel
  obtain ⟨d, hd⟩ := Option.isSome_iff_exists.1 hsome
  exact ⟨d, toOption_eq_some.1 hd⟩

theorem interfaceTexts_settled_everywhere :
    OtherwiseValid Rule.check Way.incoming.field loginMembers ∧
    OtherwiseValid Mapping.check "iface" relayMembers ∧
    TakenAlike .incoming loginMembers relayMembers "ext0" ∧
    ∃ d, build everywhereSpec webTarget = .ok d ∧ d.table.Names .incoming "any" ∧
      ¬ d.table.Names .outgoing "any" := by
  obtain ⟨d, hd⟩ := exists_everywhereDocument
  obtain ⟨htaken, hdocument⟩ := interfaceTexts_settled otherwiseValid_login otherwiseValid_relay
  have hnames := hdocument _ _ _ hd
  refine ⟨otherwiseValid_login, otherwiseValid_relay, (htaken.alike "ext0").2 (by decide), d, hd,
    (hnames .incoming "any" (by decide)).2 ?_, fun hout => ?_⟩
  · exact ⟨_, List.mem_singleton.2 rfl, by rfl, relayMapping "any", check_relay, rfl⟩
  · obtain ⟨v, hv, -, k, hk, hway⟩ := (hnames .outgoing "any" (by decide)).1 hout
    obtain rfl := List.mem_singleton.1 hv
    rw [check_relay] at hk
    cases hk
    cases hway

/-- The rule is for every interface, and the line of the mapping is for an interface of that name. -/
theorem mapping_for_every_interface_names_one :
    ¬ TakenAlike .incoming loginMembers relayMembers "any" ∧
    Rule.check (ruleWith .incoming loginMembers "any") = .ok (loginRule .any) ∧
    (ruleLine webTarget.logMark (loginRule .any)).text = "tcp dport \x7b 22 \x7d accept" ∧
    Mapping.check (mappingWith relayMembers "any") = .ok (relayMapping "any") ∧
    (mappingLine (relayMapping "any")).text =
      "iifname \"any\" ip daddr 203.0.113.5 dnat to 10.0.0.5" ∧
    ∃ d, build everywhereSpec webTarget = .ok d ∧ d.table.Names .incoming "any" := by
  obtain ⟨d, hd⟩ := exists_everywhereDocument
  refine ⟨?_, by rfl, by decide +kernel, check_relay, by decide +kernel, d, hd, ?_⟩
  · rintro ⟨x, hrule, hmapping⟩
    rw [ruleTakes_iff otherwiseValid_login] at hrule
    rw [mappingTakes_iff otherwiseValid_relay, hrule, ruleReading_mem_mappingReadings] at hmapping
    exact hmapping (by decide)
  · exact (names_of_build hd (by decide)).2
      ⟨_, List.mem_singleton.2 rfl, by rfl, relayMapping "any", check_relay, rfl⟩

end Documents

end Document
end TwinWall
