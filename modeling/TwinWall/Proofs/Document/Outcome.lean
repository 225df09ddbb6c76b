import Mathlib.Data.List.ReduceOption
import TwinWall.Proofs.Document.Built
import TwinWall.Proofs.Policy.Accounted

/-! What comes of building a document. Sets are looked up when a policy is checked and once more when it is
assembled; both look-ups miss the same sets, so after the first the second finds nothing. -/
namespace TwinWall
namespace Policy

/-- The set that an issue says is not declared. -/
def Issue.undeclared? : Issue → Option String
  | undeclared _ n => some n
  | _ => none

namespace Batch

theorem undeclared?_repeatedNames (seen : List String) (sets : List NamedSet) :
    (repeatedNames seen sets).filterMap Issue.undeclared? = [] := by
  refine List.filterMap_eq_nil_iff.2 fun x hx => ?_
  have hkind := kind_of_mem_repeatedNames hx
  cases x <;> first | rfl | cases hkind

/-- A use comes to such an issue just if no set has its name, of whatever type. -/
theorem undeclared?_useIssue? (sets : List NamedSet) (i : Nat) (u : String × SetType) :
    (useIssue? sets i u).bind Issue.undeclared? =
      Option.guard (fun n => !sets.any (·.name = n)) u.1 := by
  cases hd : declared? sets u.1 with
  | none =>
    have hnone : ∀ d ∈ sets, d.name ≠ u.1 := declared?_eq_none.1 hd
    simpa [useIssue?, hd, Issue.undeclared?, Option.guard] using hnone
  | some d =>
    have hsome : ¬ ∀ e ∈ sets, e.name ≠ u.1 := by
      intro hnone
      cases hd.symm.trans (declared?_eq_none.2 hnone)
    by_cases ht : d.type = u.2
    · simpa [useIssue?, hd, ht, Option.guard] using hsome
    · simpa [useIssue?, hd, ht, Issue.undeclared?, Option.guard] using hsome

theorem undeclared?_useIssues (sets : List NamedSet) (i : Nat) (uses : List (String × SetType)) :
    (uses.filterMap (useIssue? sets i)).filterMap Issue.undeclared? =
      (uses.map (·.1)).filter fun n => !sets.any (·.name = n) := by
  rw [List.filterMap_filterMap, ← List.filterMap_eq_filter, List.filterMap_map]
  exact List.filterMap_congr fun u _ => undeclared?_useIssue? sets i u

theorem undeclared?_useIssuesFrom (sets : List NamedSet) (rules : List Rule) (i : Nat) :
    (useIssuesFrom sets i rules).filterMap Issue.undeclared? =
      (rules.flatMap fun r => r.setUses.map (·.1)).filter fun n => !sets.any (·.name = n) := by
  induction rules generalizing i with
  | nil => rfl
  | cons r rules ih =>
    rw [useIssuesFrom, List.filterMap_append, undeclared?_useIssues, ih, List.flatMap_cons,
      List.filter_append]

end Batch
end Policy

namespace Document

open Policy

/-- The sets that a rule names: in its source, in its destination, in its ports. -/
def namedSets (r : Rule) : List String :=
  [r.source.set?, r.destination.set?, r.ports.set?].reduceOption

/-- Those of them that no set of the policy has for its name, rule by rule. -/
def missingSets (p : Ruleset) : List String :=
  p.rules.flatMap fun r => (namedSets r).filter fun n => ∀ d ∈ p.sets, d.name ≠ n

/-- Whether some rule names a set that is not there. -/
def LacksSet (p : Ruleset) : Prop :=
  ∃ r ∈ p.rules, ∃ n, (r.source = .set n ∨ r.destination = .set n ∨ r.ports = .set n) ∧
    ∀ d ∈ p.sets, d.name ≠ n

variable {p : Ruleset} {t : Target} {s : Spec}

theorem map_fst_setUses (r : Rule) : r.setUses.map (·.1) = namedSets r := by
  rw [Rule.setUses, namedSets]
  cases r.source.set? <;> cases r.destination.set? <;> cases r.ports.set? <;> rfl

theorem mem_namedSets {r : Rule} {n : String} :
    n ∈ namedSets r ↔ r.source = .set n ∨ r.destination = .set n ∨ r.ports = .set n := by
  have haddress : ∀ a : AddressMatch, a.set? = some n ↔ a = .set n := by
    intro a
    cases a <;> simp [AddressMatch.set?]
  have hports : r.ports.set? = some n ↔ r.ports = .set n := by
    cases r.ports <;> simp [PortMatch.set?]
  rw [namedSets, List.reduceOption_mem_iff]
  simp only [List.mem_cons, List.not_mem_nil, or_false, eq_comm (a := some n), haddress, hports]

theorem undeclaredUses_eq (p : Ruleset) : undeclaredUses p = missingSets p := by
  simp only [undeclaredUses, missingSets, map_fst_setUses, List.filter_flatMap]
  refine List.flatMap_congr fun r _ => List.filter_congr fun n _ => ?_
  rw [Bool.eq_iff_iff]
  simp

theorem undeclaredUses_ne_nil : undeclaredUses p ≠ [] ↔ LacksSet p := by
  rw [undeclaredUses_eq, Ne, missingSets, List.flatMap_eq_nil_iff]
  simp only [List.filter_eq_nil_iff, mem_namedSets, not_forall, LacksSet]
  simp

/-- The look-up of the check misses the same sets, in the same order. -/
theorem undeclared?_referenceIssues (p : Ruleset) :
    (Batch.referenceIssues p.rules p.sets).filterMap Issue.undeclared? = undeclaredUses p := by
  rw [Batch.referenceIssues, List.filterMap_append, Batch.undeclared?_repeatedNames,
    Batch.undeclared?_useIssuesFrom, List.nil_append, undeclaredUses]

theorem undeclaredUses_of_check (h : s.check = .ok p) : undeclaredUses p = [] := by
  have haccepted := Spec.accepted_iff.1 h
  rw [← undeclared?_referenceIssues,
    Batch.referenceIssues_eq_nil.2 ⟨haccepted.distinct, haccepted.declared⟩]
  rfl

theorem assemble_of_target {l : List NameError} (h : t.check = .error l) (p : Ruleset) :
    assemble p t = .error (.target l) := by
  rw [assemble, h]

theorem assemble_of_missing (ht : t.check = .ok ()) (h : undeclaredUses p ≠ []) :
    assemble p t = .error (.undeclared (missingSets p)) := by
  rw [← undeclaredUses_eq]
  cases huses : undeclaredUses p with
  | nil => exact absurd huses h
  | cons n l => rw [assemble, ht, huses]

theorem assemble_of_declared (ht : t.check = .ok ()) (h : undeclaredUses p = []) :
    assemble p t = .ok ⟨tableOf p t⟩ := by
  rw [assemble, ht, h]

/-- What comes of a policy, checked or not, for a target. -/
structure Assembling (p : Ruleset) (t : Target) : Prop where
  fails_iff : (∃ e, assemble p t = .error e) ↔ (∃ l, t.check = .error l) ∨ LacksSet p
  of_target : ∀ l, t.check = .error l → assemble p t = .error (.target l)
  message : ∀ e, assemble p t = .error e → t.check = .ok () →
    e.message = "rules reference undeclared sets: " ++ ", ".intercalate (missingSets p)
  same_missed : (Batch.referenceIssues p.rules p.sets).filterMap Issue.undeclared? = missingSets p

/-- What comes of a policy as it is given, for a target. -/
structure Building (s : Spec) (t : Target) : Prop where
  invalid_iff : ∀ l, build s t = .error (.invalid l) ↔ s.check = .error l
  assembly_iff : ∀ p, s.check = .ok p →
    ∀ e, build s t = .error (.assembly e) ↔ ∃ l, t.check = .error l ∧ e = .target l
  ok_iff : (∃ d, build s t = .ok d) ↔ (∃ p, s.check = .ok p) ∧ t.check = .ok ()
  declared : ∀ l, build s t ≠ .error (.assembly (.undeclared l))

theorem assembling (p : Ruleset) (t : Target) : Assembling p t := by
  have hmissed := undeclared?_referenceIssues p
  rw [undeclaredUses_eq] at hmissed
  cases ht : t.check with
  | error l =>
    have herror := assemble_of_target ht p
    refine ⟨⟨fun _ => Or.inl ⟨l, ht⟩, fun _ => ⟨_, herror⟩⟩, fun m hm => ?_, fun e _ hok => ?_, hmissed⟩
    · cases ht.symm.trans hm
      exact herror
    · cases ht.symm.trans hok
  | ok u =>
    have hnot : ¬ ∃ l, t.check = .error l := by
      rintro ⟨l, hl⟩
      cases ht.symm.trans hl
    by_cases huses : undeclaredUses p = []
    · have hok := assemble_of_declared ht huses
      refine ⟨⟨?_, ?_⟩, fun l hl => absurd ⟨l, hl⟩ hnot, fun e he => ?_, hmissed⟩
      · rintro ⟨e, he⟩
        cases hok.symm.trans he
      · rintro (htarget | hlacks)
        · exact absurd htarget hnot
        · exact absurd huses (undeclaredUses_ne_nil.2 hlacks)
      · cases hok.symm.trans he
    · have herror := assemble_of_missing ht huses
      refine ⟨⟨fun _ => Or.inr (undeclaredUses_ne_nil.1 huses), fun _ => ⟨_, herror⟩⟩,
        fun l hl => absurd ⟨l, hl⟩ hnot, fun e he _ => ?_, hmissed⟩
      cases herror.symm.trans he
      rfl

theorem build_of_error {l : List Issue} (h : s.check = .error l) (t : Target) :
    build s t = .error (.invalid l) := by
  rw [build, h]

theorem build_of_target {l : List NameError} (h : s.check = .ok p) (ht : t.check = .error l) :
    build s t = .error (.assembly (.target l)) := by
  simp only [build, h, assemble_of_target ht, Except.mapError]

theorem build_of_ok (h : s.check = .ok p) (ht : t.check = .ok ()) :
    build s t = .ok ⟨tableOf p t⟩ := by
  simp only [build, h, assemble_of_declared ht (undeclaredUses_of_check h), Except.mapError]

theorem building (s : Spec) (t : Target) : Building s t := by
  cases hs : s.check with
  | error l =>
    have herror := build_of_error hs t
    refine ⟨fun m => ?_, fun p hp => ?_, ⟨?_, ?_⟩, fun m hm => ?_⟩
    · rw [herror, hs]
      simp
    · cases hs.symm.trans hp
    · rintro ⟨d, hd⟩
      cases herror.symm.trans hd
    · rintro ⟨⟨p, hp⟩, -⟩
      cases hs.symm.trans hp
    · cases herror.symm.trans hm
  | ok p =>
    cases ht : t.check with
    | error l =>
      have herror := build_of_target hs ht
      refine ⟨fun m => ?_, fun q _ e => ?_, ⟨?_, ?_⟩, fun m hm => ?_⟩
      · rw [herror, hs]
        simp
      · rw [herror, ht]
        simp [eq_comm]
      · rintro ⟨d, hd⟩
        cases herror.symm.trans hd
      · rintro ⟨-, hok⟩
        cases ht.symm.trans hok
      · cases herror.symm.trans hm
    | ok u =>
      have hok := build_of_ok hs ht
      refine ⟨fun m => ?_, fun q _ e => ?_, ⟨fun _ => ⟨⟨p, hs⟩, ht⟩, fun _ => ⟨_, hok⟩⟩, fun m hm => ?_⟩
      · rw [hok, hs]
        simp
      · rw [hok, ht]
        simp
      · cases hok.symm.trans hm

/-- Which error there is, if any, is settled by the policy and the names of the target alone. -/
theorem outcome_settled :
    (∀ s t, Building s t) ∧ ∀ p t, Assembling p t :=
  ⟨building, assembling⟩

/-- Rules that name one set that is there and two that are not. -/
def lackingRules : Ruleset :=
  ⟨[⟨.v4, .set "office", .any, .tcp, .set "web", .accept, false, .input .any, 0⟩,
      ⟨.v4, .any, .set "lab", .any, .list [], .drop, false, .input .any, 1⟩],
    [⟨"web", .inetService, [.port (.single 80)]⟩], [], {}⟩

theorem outcome_settled_lacking :
    (∃ e, assemble lackingRules webTarget = .error e ∧
      e.message = "rules reference undeclared sets: office, lab") ∧
    build webSpec ⟨"", "edge", 0⟩ = .error (.assembly (.target [.empty "namespace"])) ∧
    ∃ d, build webSpec webTarget = .ok d := by
  obtain ⟨hbuild, hassemble⟩ := outcome_settled
  have hlacks : LacksSet lackingRules := by
    rw [← undeclaredUses_ne_nil]
    decide
  obtain ⟨e, he⟩ := (hassemble lackingRules webTarget).fails_iff.2 (Or.inr hlacks)
  have hchecked : webSpec.check = .ok webSpec.soundPart := by rfl
  have hempty : (⟨"", "edge", 0⟩ : Target).check = .error [.empty "namespace"] := by rfl
  refine ⟨⟨e, he, (hassemble lackingRules webTarget).message e he (by rfl)⟩, ?_, ?_⟩
  · exact ((hbuild webSpec _).assembly_iff _ hchecked _).2 ⟨_, hempty, rfl⟩
  · exact (hbuild webSpec webTarget).ok_iff.2 ⟨⟨_, hchecked⟩, by rfl⟩

end Document
end TwinWall
