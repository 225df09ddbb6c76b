import Mathlib.Data.List.Forall2
import TwinWall.Proofs.Net.HostBits
import TwinWall.Proofs.Policy.Fields
import TwinWall.Policy.RuleCheck
import TwinWall.Policy.SetCheck

/-! What a check keeps of the value that it accepts. Every item of a list is in the rule or set that comes
of it, in its place and with what the checks have made sure of. -/
namespace TwinWall
namespace Policy

open Json Net Text

/-- The name of an interface, which is no word that stands for something else. -/
structure IsInterfaceName (s : String) : Prop extends IsNameWithin interfaceLimit s where
  not_special : s ∉ [".", "..", "any", "none"]

/-- Whether a rule does not hang on the interface of a field. -/
def Unset (given : Option Value) : Prop :=
  Missing given ∨ ∃ s ∈ Rule.unsetWords, given = some (.string s)

def Interface.Kept (given : Option Value) : Interface → Prop
  | any => given = some (.string anyWord)
  | named n => given = some (.string n) ∧ IsInterfaceName n

def Direction.Kept (incoming outgoing : Option Value) : Direction → Prop
  | input i => i.Kept incoming ∧ Unset outgoing
  | output o => Unset incoming ∧ o.Kept outgoing
  | forward i o => i.Kept incoming ∧ o.Kept outgoing

/-- A side as it was read, with an interface or without. -/
def SideKept (given : Option Value) : Option Interface → Prop
  | some i => i.Kept given
  | none => Unset given

/-- A list with nothing in it but the use of a set. -/
def SetUse (given : Option Value) (n : String) : Prop :=
  given = some (.array [.string ("@" ++ n)]) ∧ IsNameWithin identifierLimit n

/-- A list with an item for each of some entries, in their order. -/
def Listed {α : Type} (From : Value → α → Prop) (given : Option Value) (l : List α) : Prop :=
  ∃ items, given = some (.array items) ∧ List.Forall₂ From items l

/-- A network of a family that was read from an item. -/
structure NetworkFrom (f : Family) (v : Value) (n : Subnet) : Prop where
  read : ∃ raw, v = .string raw ∧ Subnet.parse raw = .ok n
  family : n.family = f
  noHostBits : n.NoHostBits

/-- Ports that were read from an item. A number, which may have a fraction of zero, is one port. -/
inductive PortFrom : Value → PortEntry → Prop
  | text {raw : String} {e : PortEntry} (read : PortEntry.parse raw = .ok e) (sound : e.Sound) :
    PortFrom (.string raw) e
  | number {n : Number} {p : Nat} (read : n.toInt? = some p) (sound : (PortEntry.single p).Sound) :
    PortFrom (.number n) (.single p)

def AddressMatch.Kept (f : Family) (given : Option Value) : AddressMatch → Prop
  | any => given = some (.array [.string anyWord])
  | set n => SetUse given n
  | list l => l ≠ [] ∧ Listed (NetworkFrom f) given l

def PortMatch.Kept (given : Option Value) : PortMatch → Prop
  | set n => SetUse given n
  | list l => Missing given ∧ l = [] ∨ Listed PortFrom given l

structure Rule.Kept (v : Value) (r : Rule) : Prop where
  source : r.source.Kept r.version (v.get? "source")
  destination : r.destination.Kept r.version (v.get? "destination")
  ports : r.ports.Kept (v.get? "port")
  direction : r.direction.Kept (v.get? "iiface") (v.get? "oiface")

def isLowerHex (c : Char) : Bool := c.isDigit || ('a' ≤ c && c ≤ 'f')

/-- Six pairs of lower-case digits with a colon between them. -/
def IsLowerMac (s : String) : Prop :=
  ∃ pairs : List (Char × Char), pairs.length = 6 ∧
    (∀ p ∈ pairs, isLowerHex p.1 = true ∧ isLowerHex p.2 = true) ∧
    s = ":".intercalate (pairs.map fun p => String.ofList [p.1, p.2])

/-- The element that a set of a type has for an item. -/
inductive ElementFrom : SetType → Value → SetElement → Prop
  | network {f : Family} {v : Value} {n : Subnet} (network : NetworkFrom f v n) :
    ElementFrom (.ofFamily f) v (.network n)
  | port {v : Value} {e : PortEntry} (port : PortFrom v e) : ElementFrom .inetService v (.port e)
  | mac {raw : String} (mac : IsLowerMac (macText raw)) :
    ElementFrom .etherAddr (.string raw) (.mac (macText raw))

structure NamedSet.Kept (v : Value) (d : NamedSet) : Prop where
  name_given : v.get? "name" = some (.string d.name)
  type_given : v.get? "type" = some (.string d.type.text)
  name : IsNameWithin identifierLimit d.name
  elements_ne_nil : d.elements ≠ []
  elements : Listed (ElementFrom d.type) (v.get? "elements") d.elements

theorem forall_of_forall₂ {α : Type} {From : Value → α → Prop} {P : α → Prop} {items : List Value}
    {l : List α} (h : List.Forall₂ From items l) (hp : ∀ v x, From v x → P x) : ∀ x ∈ l, P x := by
  have hflip : List.Forall₂ (fun x v => P x ∧ From v x) l items :=
    List.Forall₂.flip (h.imp fun v x hx => ⟨hp v x hx, hx⟩)
  exact ((List.forall₂_and_left l items).1 hflip).1

theorem Listed.forall {α : Type} {From : Value → α → Prop} {P : α → Prop} {given : Option Value}
    {l : List α} (h : Listed From given l) (hp : ∀ v x, From v x → P x) : ∀ x ∈ l, P x := by
  obtain ⟨items, -, hitems⟩ := h
  exact forall_of_forall₂ hitems hp

theorem isInterfaceName_of_check {s t : String} (h : checkInterface s = .ok t) (hu : s ∉ Rule.unsetWords)
    (hany : s ≠ anyWord) : t = s ∧ IsInterfaceName t := by
  obtain ⟨hname, hdot, hdots⟩ := isNameWithin_of_checkInterface h
  obtain rfl := eq_of_checkInterface h
  refine ⟨rfl, hname, ?_⟩
  simp only [List.mem_cons, List.not_mem_nil, or_false, not_or]
  exact ⟨hdot, hdots, hany, fun hnone => hu (by simp [hnone, Rule.unsetWords])⟩

/-- Items are all read just if they are read one by one. -/
theorem all_map_eq_ok {α : Type} {read : Value → Except Defect α} {items : List Value} {l : List α} :
    Checked.all (items.map read) = .ok l ↔ List.Forall₂ (fun v x => read v = .ok x) items l := by
  rw [Checked.all_eq_ok, ← List.forall₂_eq_eq_eq, List.forall₂_map_left_iff,
    List.forall₂_map_right_iff]

theorem forall₂_of_all {α : Type} {read : Value → Except Defect α} {From : Value → α → Prop}
    {items : List Value} {l : List α} (h : Checked.all (items.map read) = .ok l)
    (hfrom : ∀ v x, read v = .ok x → From v x) : List.Forall₂ From items l :=
  (all_map_eq_ok.1 h).imp hfrom

theorem PortFrom.sound {v : Value} {e : PortEntry} (h : PortFrom v e) : e.Sound := by
  cases h with
  | text _ hsound => exact hsound
  | number _ hsound => exact hsound

theorem ne_nil_of_forall₂ {α : Type} {From : Value → α → Prop} {items : List Value} {l : List α}
    (h : List.Forall₂ From items l) (hne : items ≠ []) : l ≠ [] := by
  rintro rfl
  exact hne (List.forall₂_nil_right_iff.1 h)

theorem portFrom_of_portOf {v : Value} {e : PortEntry} (h : portOf v = .ok e) : PortFrom v e := by
  rw [portOf.eq_def] at h
  split at h
  · have hread := mapError_eq_ok.1 h
    exact .text hread (PortEntry.sound_of_parse hread)
  · split at h
    · rename_i p hp
      split at h
      · rename_i hle
        obtain ⟨n, hn, rfl⟩ := map_eq_ok.1 (mapError_eq_ok.1 h)
        obtain ⟨rfl, hpos⟩ := checkPort_eq_ok.1 hn
        exact .number hp ⟨hpos, hle⟩
      · cases h
    · cases h
  · cases h

theorem networkOf_eq_ok {v : Value} {raw : String} {n : Subnet} (h : networkOf v = .ok (raw, n)) :
    v = .string raw ∧ Subnet.parse raw = .ok n := by
  rw [networkOf.eq_def] at h
  split at h
  · obtain ⟨k, hk, hp⟩ := map_eq_ok.1 (mapError_eq_ok.1 h)
    cases hp
    exact ⟨rfl, hk⟩
  · cases h

theorem networkFrom_of_networkOf {f : Family} {v : Value} {raw : String} {n : Subnet}
    (h : networkOf v = .ok (raw, n)) (hf : n.family = f) : NetworkFrom f v n := by
  obtain ⟨rfl, hparse⟩ := networkOf_eq_ok h
  exact ⟨⟨raw, rfl, hparse⟩, hf, Subnet.noHostBits_of_parse hparse⟩

/-- What is behind the mark of a set is its name. -/
theorem setUse_of_setName {field s n : String} {given : Option Value} (hs : isSetUse s = true)
    (hgiven : given = some (.array [.string s])) (h : setName field s = .ok n) : SetUse given n := by
  have hcheck := mapError_eq_ok.1 h
  have hn := eq_of_checkIdentifier hcheck
  refine ⟨?_, isNameWithin_of_checkIdentifier hcheck⟩
  obtain ⟨cs, hcs⟩ : ∃ cs, s.toList = '@' :: cs := by
    rw [isSetUse, decide_eq_true_eq, List.head?_eq_some_iff] at hs
    exact hs
  have hat : s = "@" ++ n := by
    rw [← String.toList_inj, hn, hcs]
    simp
  rw [hgiven, hat]

namespace Rule

variable {m : Members} {field : String}

theorem networkFrom_of_addressOf {f : Family} {v : Value} {n : Subnet}
    (h : addressOf field (some f) v = .ok n) : NetworkFrom f v n := by
  rw [addressOf] at h
  split at h
  · cases h
  · rename_i raw k hk
    by_cases hf : k.family = f
    · simp only [if_pos hf, Except.ok.injEq] at h
      rw [← h]
      exact networkFrom_of_networkOf hk hf
    · simp [hf] at h

theorem kept_of_addressesOf {f : Family} {a : AddressMatch}
    (h : addressesOf (some f) m field = .ok a) : a.Kept f (m.get? field) := by
  rw [addressesOf] at h
  split at h
  · cases h
  · cases h
  · rename_i v r hitems
    have hgiven := requiredList_eq_ok hitems
    split at h
    · rename_i hspecial
      split at h
      · rename_i s
        split at h
        · rename_i hs
          cases h
          rw [hs] at hgiven
          exact hgiven
        · rename_i hs
          obtain ⟨n, hn, rfl⟩ := map_eq_ok.1 (Checked.one_eq_ok.1 h)
          have hset : isSetUse s = true := by
            simpa [isSpecial, Value.string?, hs] using hspecial
          exact setUse_of_setName hset hgiven hn
      · cases h
    · obtain ⟨l, hl, rfl⟩ := map_eq_ok.1 h
      have hread : List.Forall₂ (NetworkFrom f) (v :: r) l :=
        forall₂_of_all hl fun w n hn => networkFrom_of_addressOf hn
      exact ⟨ne_nil_of_forall₂ hread (by simp), v :: r, hgiven, hread⟩

theorem kept_of_portsOf {p : PortMatch} (h : portsOf m = .ok p) : p.Kept (m.get? "port") := by
  rw [portsOf] at h
  split at h
  · rename_i hnone
    cases h
    exact Or.inl ⟨missing_of_given? hnone, rfl⟩
  · rename_i items hitems
    have hgiven := get?_of_given? hitems
    split at h
    · rename_i hset
      split at h
      · rename_i s
        obtain ⟨n, hn, rfl⟩ := map_eq_ok.1 (Checked.one_eq_ok.1 h)
        have hset : isSetUse s = true := by simpa [isPortSet, Value.string?] using hset
        exact setUse_of_setName hset hgiven hn
      · cases h
    · obtain ⟨l, hl, rfl⟩ := map_eq_ok.1 h
      exact Or.inr ⟨items, hgiven,
        forall₂_of_all hl fun v e he => portFrom_of_portOf (mapError_eq_ok.1 he)⟩
  · cases h

theorem kept_of_interfaceOf {o : Option Interface} (h : interfaceOf m field = .ok o) :
    SideKept (m.get? field) o := by
  rw [interfaceOf] at h
  split at h
  · rename_i hnone
    cases h
    exact Or.inl (missing_of_given? hnone)
  · rename_i s hs
    have hgiven := get?_of_given? hs
    split at h
    · rename_i hunset
      cases h
      exact Or.inr ⟨s, hunset, hgiven⟩
    · rename_i hunset
      split at h
      · rename_i hany
        cases h
        rw [hgiven, hany]
        rfl
      · rename_i hany
        obtain ⟨n, hn, rfl⟩ := map_eq_ok.1 (mapError_eq_ok.1 h)
        obtain ⟨rfl, hname⟩ := isInterfaceName_of_check hn hunset hany
        exact ⟨hgiven, hname⟩
  · cases h

theorem kept_of_directionOf {d : Direction} (h : directionOf m = .ok d) :
    d.Kept (m.get? "iiface") (m.get? "oiface") := by
  rw [directionOf] at h
  split at h
  · cases h
  all_goals
    rename_i hboth
    obtain ⟨hi, ho⟩ := Checked.both_eq_ok.1 hboth
    have hin := kept_of_interfaceOf (Checked.one_eq_ok.1 hi)
    have hout := kept_of_interfaceOf (Checked.one_eq_ok.1 ho)
    cases h
  all_goals exact ⟨hin, hout⟩

theorem kept_of_check {v : Value} {r : Rule} (h : check v = .ok r) : r.Kept v := by
  obtain ⟨m, hm, h⟩ := bind_eq_ok.1 h
  obtain rfl := eq_object_of_membersOf (Checked.one_eq_ok.1 hm)
  obtain ⟨parts, hparts, rfl⟩ := map_eq_ok.1 h
  obtain ⟨-, hparts⟩ := Checked.both_eq_ok.1 hparts
  obtain ⟨hversion, hparts⟩ := Checked.both_eq_ok.1 hparts
  obtain ⟨-, hparts⟩ := Checked.both_eq_ok.1 hparts
  obtain ⟨hsource, hparts⟩ := Checked.both_eq_ok.1 hparts
  obtain ⟨hdestination, hparts⟩ := Checked.both_eq_ok.1 hparts
  obtain ⟨hports, hparts⟩ := Checked.both_eq_ok.1 hparts
  obtain ⟨hdirection, -⟩ := Checked.both_eq_ok.1 hparts
  -- The addresses were read with the version that the rule has in the end.
  rw [Checked.one_eq_ok.1 hversion] at hsource hdestination
  exact ⟨kept_of_addressesOf hsource, kept_of_addressesOf hdestination, kept_of_portsOf hports,
    kept_of_directionOf hdirection⟩

end Rule

/-- A digit of either case is no hyphen, and is made one of lower case. -/
theorem isLowerHex_toLower {c : Char} (h : isHex c = true) :
    c ≠ '-' ∧ isLowerHex c.toLower = true :=
  of_forall_ascii (P := fun c => isHex c = true → c ≠ '-' ∧ isLowerHex c.toLower = true) (by decide)
    (toNat_lt_of_isHex h) h

/-- The pairs of an address in lower case. -/
theorem exists_pairs_of_isMac {s : List Char} (h : isMac s = true) :
    ∃ pairs : List (Char × Char), 3 * pairs.length = s.length + 1 ∧
      (∀ p ∈ pairs, isLowerHex p.1 = true ∧ isLowerHex p.2 = true) ∧
      s.map (fun c => if c = '-' then ':' else c.toLower) =
        List.intercalate [':'] (pairs.map fun p => [p.1, p.2]) := by
  fun_induction isMac s with
  | case1 a b =>
    simp only [Bool.and_eq_true] at h
    obtain ⟨hna, ha⟩ := isLowerHex_toLower h.1
    obtain ⟨hnb, hb⟩ := isLowerHex_toLower h.2
    exact ⟨[(a.toLower, b.toLower)], rfl, by simp [ha, hb], by simp [hna, hnb]⟩
  | case2 a b c r ih =>
    simp only [Bool.and_eq_true, Bool.or_eq_true, beq_iff_eq] at h
    obtain ⟨⟨⟨ha, hb⟩, hc⟩, hr⟩ := h
    obtain ⟨hna, ha⟩ := isLowerHex_toLower ha
    obtain ⟨hnb, hb⟩ := isLowerHex_toLower hb
    obtain ⟨pairs, hlen, hall, htext⟩ := ih hr
    have hcolon : (if c = '-' then ':' else c.toLower) = ':' := by
      rcases hc with rfl | rfl <;> rfl
    have hne : pairs ≠ [] := by
      rintro rfl
      simp at hlen
    refine ⟨(a.toLower, b.toLower) :: pairs, ?_, ?_, ?_⟩
    · simp only [List.length_cons]
      omega
    · simp only [List.forall_mem_cons]
      exact ⟨⟨ha, hb⟩, hall⟩
    · simp only [List.map_cons, if_neg hna, if_neg hnb, hcolon, htext]
      rw [List.intercalate_cons_of_ne_nil (by simpa using hne)]
      rfl
  | case3 => cases h

theorem toList_pairs (pairs : List (Char × Char)) :
    (":".intercalate (pairs.map fun p => String.ofList [p.1, p.2])).toList =
      List.intercalate [':'] (pairs.map fun p => [p.1, p.2]) := by
  rw [String.toList_intercalate, List.map_map]
  simp only [Function.comp_def, String.toList_ofList]
  rfl

theorem isLowerMac_of_isMacAddress {s : String} (h : isMacAddress s = true) : IsLowerMac (macText s) := by
  simp only [isMacAddress, Bool.and_eq_true, decide_eq_true_eq] at h
  obtain ⟨hlen, hmac⟩ := h
  obtain ⟨pairs, hcount, hall, htext⟩ := exists_pairs_of_isMac hmac
  rw [String.length_toList, hlen] at hcount
  refine ⟨pairs, by omega, hall, ?_⟩
  rw [macText, htext, ← String.toList_inj, String.toList_ofList, toList_pairs]

namespace NamedSet

variable {m : Members}

theorem elementFrom_of_addressOf {t : SetType} {f : Family} {v : Value} {e : SetElement}
    (h : addressOf t f v = .ok e) : ElementFrom (.ofFamily f) v e := by
  rw [addressOf] at h
  split at h
  · cases h
  · rename_i raw n hn
    by_cases hf : n.family = f
    · simp only [if_pos hf, Except.ok.injEq] at h
      rw [← h]
      exact .network (networkFrom_of_networkOf hn hf)
    · simp [hf] at h

theorem elementFrom_of_elementOf {t : SetType} {v : Value} {e : SetElement}
    (h : elementOf t v = .ok e) : ElementFrom t v e := by
  cases t with
  | ipv4Addr => exact elementFrom_of_addressOf (f := .v4) h
  | ipv6Addr => exact elementFrom_of_addressOf (f := .v6) h
  | inetService =>
    obtain ⟨p, hp, rfl⟩ := map_eq_ok.1 h
    exact .port (portFrom_of_portOf hp)
  | etherAddr =>
    rw [elementOf.eq_def] at h
    split at h <;> try contradiction
    split at h
    · split at h
      · rename_i hmac
        cases h
        exact .mac (isLowerMac_of_isMacAddress hmac)
      · cases h
    · cases h

theorem typeOf_eq_ok {t : SetType} (h : typeOf m = .ok t) :
    m.get? "type" = some (.string t.text) := by
  obtain ⟨s, hs, ht⟩ := requiredWord_eq_ok h
  rw [SetType.ofText?] at ht
  have htext : t.text = s := by simpa using List.find?_some ht
  rw [hs, htext]

theorem itemsOf_eq_ok {l : List Value} (h : itemsOf m = .ok l) :
    m.get? "elements" = some (.array l) ∧ l ≠ [] := by
  rw [itemsOf] at h
  split at h
  · cases h
  · rename_i hne
    refine ⟨requiredList_eq_ok h, ?_⟩
    rintro rfl
    exact hne h

/-- A set is accepted just if its name, its type and each of its elements are. -/
theorem check_eq_ok {v : Value} {d : NamedSet} : check v = .ok d ↔
    ∃ m items, v = .object m ∧ nameOf m = .ok d.name ∧ typeOf m = .ok d.type ∧
      itemsOf m = .ok items ∧ List.Forall₂ (fun w e => elementOf d.type w = .ok e) items d.elements := by
  constructor
  · intro h
    obtain ⟨m, hm, h⟩ := bind_eq_ok.1 h
    obtain rfl := eq_object_of_membersOf (Checked.one_eq_ok.1 hm)
    obtain ⟨⟨name, content⟩, hparts, rfl⟩ := map_eq_ok.1 h
    obtain ⟨hname, hcontent⟩ := Checked.both_eq_ok.1 hparts
    obtain ⟨⟨t, items⟩, hboth, h⟩ := bind_eq_ok.1 hcontent
    obtain ⟨es, hes, h⟩ := bind_eq_ok.1 h
    cases h
    obtain ⟨htype, hitems⟩ := Checked.both_eq_ok.1 hboth
    exact ⟨m, items, rfl, Checked.one_eq_ok.1 hname, Checked.one_eq_ok.1 htype,
      Checked.one_eq_ok.1 hitems, forall₂_of_all hes fun v e he => mapError_eq_ok.1 he⟩
  · rintro ⟨m, items, rfl, hname, htype, hitems, helements⟩
    have hes : Checked.all (items.map fun w =>
        (elementOf d.type w).mapError (Defect.inField "elements")) = .ok d.elements :=
      all_map_eq_ok.2 (helements.imp fun w e => mapError_eq_ok.2)
    have hboth : Checked.both (Checked.one (typeOf m)) (Checked.one (itemsOf m)) =
        .ok (d.type, items) :=
      Checked.both_eq_ok.2 ⟨Checked.one_eq_ok.2 htype, Checked.one_eq_ok.2 hitems⟩
    have hcontent : contentOf m = .ok (d.type, d.elements) :=
      bind_eq_ok.2 ⟨(d.type, items), hboth, bind_eq_ok.2 ⟨d.elements, hes, rfl⟩⟩
    have hparts : Checked.both (Checked.one (nameOf m)) (contentOf m) =
        .ok (d.name, d.type, d.elements) :=
      Checked.both_eq_ok.2 ⟨Checked.one_eq_ok.2 hname, hcontent⟩
    exact bind_eq_ok.2 ⟨m, rfl, map_eq_ok.2 ⟨_, hparts, rfl⟩⟩

theorem kept_of_check {v : Value} {d : NamedSet} (h : check v = .ok d) : d.Kept v := by
  obtain ⟨m, items, rfl, hname, htype, hitems, helements⟩ := check_eq_ok.1 h
  obtain ⟨raw, hraw, hcheck⟩ := bind_eq_ok.1 hname
  have hcheck := mapError_eq_ok.1 hcheck
  have hgiven := requiredString_eq_ok hraw
  rw [← eq_of_checkIdentifier hcheck] at hgiven
  obtain ⟨hlist, hne⟩ := itemsOf_eq_ok hitems
  have hread := helements.imp fun v e => elementFrom_of_elementOf
  exact ⟨hgiven, typeOf_eq_ok htype, isNameWithin_of_checkIdentifier hcheck,
    ne_nil_of_forall₂ hread hne, items, hlist, hread⟩

end NamedSet
end Policy
end TwinWall
