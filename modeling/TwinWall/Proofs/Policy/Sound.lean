import TwinWall.Policy.Batch
import TwinWall.Proofs.Policy.Kept

/-! What every checked policy has: names that are plain words, addresses of the family that is asked for,
ports in their bounds, and one declaration of the right type for each set in use. -/
namespace TwinWall
namespace Policy

open Json Net Text

/-- Networks of the given family, of which a list has at least one. -/
def AddressMatch.Sound (f : Family) : AddressMatch → Prop
  | any => True
  | set n => IsName n
  | list l => l ≠ [] ∧ ∀ n ∈ l, n.family = f

def PortMatch.Sound : PortMatch → Prop
  | set n => IsName n
  | list l => ∀ e ∈ l, e.Sound

def Interface.Sound : Interface → Prop
  | any => True
  | named n => IsName n

def Direction.Sound : Direction → Prop
  | input i => i.Sound
  | output o => o.Sound
  | forward i o => i.Sound ∧ o.Sound

structure Rule.Sound (r : Rule) : Prop where
  source : r.source.Sound r.version
  destination : r.destination.Sound r.version
  ports : r.ports.Sound
  direction : r.direction.Sound

theorem AddressMatch.sound_of_kept {f : Family} {given : Option Value} {a : AddressMatch}
    (h : a.Kept f given) : a.Sound f := by
  cases a with
  | any => trivial
  | set n => exact h.2.toIsName
  | list l => exact ⟨h.1, h.2.forall fun v n hn => hn.family⟩

theorem PortMatch.sound_of_kept {given : Option Value} {p : PortMatch} (h : p.Kept given) : p.Sound := by
  cases p with
  | set n => exact h.2.toIsName
  | list l =>
    rcases h with ⟨-, rfl⟩ | hlisted
    · exact List.forall_mem_nil _
    · exact hlisted.forall fun v e he => he.sound

theorem Interface.sound_of_kept {given : Option Value} {i : Interface} (h : i.Kept given) :
    i.Sound := by
  cases i with
  | any => trivial
  | named n => exact h.2.toIsName

theorem Direction.sound_of_kept {incoming outgoing : Option Value} {d : Direction}
    (h : d.Kept incoming outgoing) : d.Sound := by
  cases d with
  | input i => exact Interface.sound_of_kept h.1
  | output o => exact Interface.sound_of_kept h.2
  | forward i o => exact ⟨Interface.sound_of_kept h.1, Interface.sound_of_kept h.2⟩

theorem Rule.sound_of_check {v : Value} {r : Rule} (h : check v = .ok r) : r.Sound := by
  have hkept := kept_of_check h
  exact ⟨AddressMatch.sound_of_kept hkept.source, AddressMatch.sound_of_kept hkept.destination,
    PortMatch.sound_of_kept hkept.ports, Direction.sound_of_kept hkept.direction⟩

/-- Whether a set of a type may have the element. -/
def SetElement.OfType : SetType → SetElement → Prop
  | .ipv4Addr, network n => n.family = .v4
  | .ipv6Addr, network n => n.family = .v6
  | .inetService, port e => e.Sound
  | .etherAddr, mac t => IsPlain t
  | _, _ => False

structure NamedSet.Sound (s : NamedSet) : Prop where
  name : IsName s.name
  elements_ne_nil : s.elements ≠ []
  elements : ∀ e ∈ s.elements, e.OfType s.type

def Mapping.Sound (m : Mapping) : Prop := ∀ i, m.interface = some i → IsName i

theorem isHex_of_isLowerHex {c : Char} (h : isLowerHex c = true) : isHex c = true := by
  simp only [isLowerHex, Bool.or_eq_true, Bool.and_eq_true, decide_eq_true_eq] at h
  by_cases hdigit : c.isDigit = true
  · simp [isHex, hexValue?, hdigit]
  · simp [isHex, hexValue?, hdigit, h.resolve_left hdigit]

theorem colon_or_isLowerHex {s : String} (h : IsLowerMac s) {c : Char} (hc : c ∈ s.toList) :
    c = ':' ∨ isLowerHex c = true := by
  obtain ⟨pairs, -, hpairs, rfl⟩ := h
  rcases mem_intercalate hc with hc | ⟨l, hl, hc⟩
  · exact Or.inl (List.mem_singleton.1 hc)
  · obtain ⟨p, hp, rfl⟩ := List.mem_map.1 hl
    rw [String.toList_ofList] at hc
    rcases List.mem_pair.1 hc with rfl | rfl
    · exact Or.inr (hpairs p hp).1
    · exact Or.inr (hpairs p hp).2

theorem isPlain_of_isLowerMac {s : String} (h : IsLowerMac s) : IsPlain s := by
  refine ⟨?_, fun c hc => ?_⟩
  · obtain ⟨pairs, hcount, -, rfl⟩ := h
    obtain ⟨p, q, r, rfl⟩ : ∃ p q r, pairs = p :: q :: r := by
      match pairs, hcount with
      | p :: q :: r, _ => exact ⟨p, q, r, rfl⟩
    simp
  · rcases colon_or_isLowerHex h hc with rfl | hlower
    · decide
    · exact (isPlain_of_isHex (isHex_of_isLowerHex hlower)).1

theorem SetElement.ofType_of_from {t : SetType} {v : Value} {e : SetElement} (h : ElementFrom t v e) :
    e.OfType t := by
  cases h with
  | @network f v n hn =>
    cases f with
    | v4 => exact hn.family
    | v6 => exact hn.family
  | port he => exact he.sound
  | mac hm => exact isPlain_of_isLowerMac hm

theorem NamedSet.sound_of_check {v : Value} {s : NamedSet} (h : check v = .ok s) : s.Sound := by
  have hkept := kept_of_check h
  exact ⟨hkept.name.toIsName, hkept.elements_ne_nil,
    hkept.elements.forall fun v e he => SetElement.ofType_of_from he⟩

namespace Mapping

theorem sound_of_interfaceOf {m : Members} {o : Option String} (h : interfaceOf m = .ok o) :
    ∀ i, o = some i → IsName i := by
  rintro i rfl
  rw [interfaceOf] at h
  split at h
  · cases h
  · split at h
    · cases h
    · obtain ⟨n, hn, hi⟩ := map_eq_ok.1 (mapError_eq_ok.1 h)
      cases hi
      exact (isNameWithin_of_checkInterface hn).1.toIsName
  · cases h

theorem sound_of_check {v : Value} {m : Mapping} (h : check v = .ok m) : m.Sound := by
  obtain ⟨fields, -, h⟩ := bind_eq_ok.1 h
  obtain ⟨parts, hparts, rfl⟩ := map_eq_ok.1 h
  obtain ⟨-, hparts⟩ := Checked.both_eq_ok.1 hparts
  obtain ⟨-, hparts⟩ := Checked.both_eq_ok.1 hparts
  obtain ⟨-, hinterface⟩ := Checked.both_eq_ok.1 hparts
  exact sound_of_interfaceOf (Checked.one_eq_ok.1 hinterface)

end Mapping

/-- What a policy has once it is checked. -/
structure Ruleset.Sound (p : Ruleset) : Prop where
  rules : ∀ r ∈ p.rules, r.Sound
  sets : ∀ s ∈ p.sets, s.Sound
  mappings : ∀ m ∈ p.mappings, m.Sound
  distinct : (p.sets.map (·.name)).Nodup
  declared : ∀ r ∈ p.rules, ∀ u ∈ r.setUses, ∃ s ∈ p.sets, s.name = u.1 ∧ s.type = u.2

namespace Batch

theorem exists_of_mem_sound {α : Type} {l : List (Checked α)} {x : α} (h : x ∈ sound l) :
    .ok x ∈ l := by
  obtain ⟨c, hc, hx⟩ := List.mem_filterMap.1 h
  cases c with
  | error e => cases hx
  | ok y =>
    cases hx
    exact hc

theorem distinct_of_repeatedNames {seen : List String} {sets : List NamedSet}
    (h : repeatedNames seen sets = []) :
    (∀ s ∈ sets, s.name ∉ seen) ∧ (sets.map (·.name)).Nodup := by
  induction sets generalizing seen with
  | nil => simp
  | cons s r ih =>
    by_cases hs : s.name ∈ seen
    · simp [repeatedNames, hs] at h
    · rw [repeatedNames, if_neg hs] at h
      obtain ⟨hseen, hdup⟩ := ih h
      refine ⟨fun t ht => ?_, ?_⟩
      · rcases List.mem_cons.1 ht with rfl | ht
        · exact hs
        · exact fun hmem => hseen t ht (List.mem_cons_of_mem _ hmem)
      · rw [List.map_cons, List.nodup_cons]
        refine ⟨fun hmem => ?_, hdup⟩
        obtain ⟨t, ht, hname⟩ := List.mem_map.1 hmem
        exact hseen t ht (by simp [hname])

theorem declared_of_useIssue? {sets : List NamedSet} {i : Nat} {u : String × SetType}
    (h : useIssue? sets i u = none) : ∃ s ∈ sets, s.name = u.1 ∧ s.type = u.2 := by
  rw [useIssue?] at h
  split at h
  · cases h
  · rename_i s hs
    have hmem := List.mem_of_find?_eq_some hs
    have hname := List.find?_some hs
    by_cases ht : s.type = u.2
    · exact ⟨s, List.mem_reverse.1 hmem, of_decide_eq_true hname, ht⟩
    · simp [ht] at h

theorem declared_of_useIssuesFrom {sets : List NamedSet} {i : Nat} {rules : List Rule}
    (h : useIssuesFrom sets i rules = []) :
    ∀ r ∈ rules, ∀ u ∈ r.setUses, ∃ s ∈ sets, s.name = u.1 ∧ s.type = u.2 := by
  induction rules generalizing i with
  | nil => simp
  | cons r rs ih =>
    obtain ⟨hr, hrs⟩ := List.append_eq_nil_iff.1 h
    intro r' hr' u hu
    rcases List.mem_cons.1 hr' with rfl | hr'
    · exact declared_of_useIssue? (List.filterMap_eq_nil_iff.1 hr u hu)
    · exact ih hrs r' hr' u hu

end Batch

namespace Spec

theorem sound_of_check {s : Spec} {p : Ruleset} (h : s.check = .ok p) : p.Sound := by
  rw [check] at h
  split at h
  · rename_i hissues
    cases h
    rw [issues] at hissues
    split at hissues
    · obtain ⟨hnames, huses⟩ := List.append_eq_nil_iff.1 hissues
      refine ⟨fun r hr => ?_, fun t ht => ?_, fun m hm => ?_, ?_, ?_⟩
      · obtain ⟨v, -, hv⟩ := List.mem_map.1 (Batch.exists_of_mem_sound hr)
        exact Rule.sound_of_check hv
      · obtain ⟨v, -, hv⟩ := List.mem_map.1 (Batch.exists_of_mem_sound ht)
        exact NamedSet.sound_of_check hv
      · obtain ⟨v, -, hv⟩ := List.mem_map.1 (Batch.exists_of_mem_sound hm)
        exact Mapping.sound_of_check hv
      · exact (Batch.distinct_of_repeatedNames hnames).2
      · exact Batch.declared_of_useIssuesFrom huses
    · contradiction
  · cases h

end Spec
end Policy
end TwinWall
