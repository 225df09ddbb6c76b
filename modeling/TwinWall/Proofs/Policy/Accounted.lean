import Mathlib.Data.Finset.Card
import Mathlib.Data.List.Forall2
import TwinWall.Proofs.Policy.Sound

/-! The check of a policy accounts for every entry. A check that refuses an entry says why, so an entry
that is left out of the result is never left out of the report. -/
namespace TwinWall
namespace Policy

open Json

namespace Checked

variable {α β : Type}

theorem told_ok (x : α) : Told (.ok x : Checked α) := nofun

theorem told_singleton (d : Defect) : Told (.error [d] : Checked α) := nofun

theorem told_error {l : List Defect} : Told (.error l : Checked α) ↔ l ≠ [] := by
  simp [Told]

theorem told_map {a : Checked α} (h : Told a) (f : α → β) : Told (a.map f) := by
  cases a with
  | ok x => exact told_ok (f x)
  | error l => exact told_error.2 (told_error.1 h)

theorem told_bind {a : Checked α} {f : α → Checked β} (h : Told a) (hf : ∀ x, Told (f x)) :
    Told (a >>= f) := by
  cases a with
  | ok x => exact hf x
  | error l => exact told_error.2 (told_error.1 h)

theorem defects_eq_nil {a : Checked α} (h : Told a) : a.defects = [] ↔ ∃ x, a = .ok x := by
  cases a with
  | ok x => simp [defects]
  | error l => simpa [defects] using told_error.1 h

end Checked

open Checked

namespace Rule

theorem told_addressesOf (version : Option Net.Family) (m : Members) (field : String) :
    Told (addressesOf version m field) := by
  rw [addressesOf]
  split
  · exact told_singleton _
  · exact told_singleton _
  · split
    · split
      · split
        · exact told_ok _
        · exact told_one _
      · exact told_singleton _
    · exact told_map (told_all _) _

theorem told_portsOf (m : Members) : Told (portsOf m) := by
  rw [portsOf]
  split
  · exact told_ok _
  · split
    · split
      · exact told_one _
      · exact told_singleton _
    · exact told_map (told_all _) _
  · exact told_singleton _

theorem told_directionOf (m : Members) : Told (directionOf m) := by
  have hboth := told_both (told_one (interfaceOf m "iiface")) (told_one (interfaceOf m "oiface"))
  rw [directionOf]
  split
  · rename_i e he
    rw [he] at hboth
    exact told_error.2 (told_error.1 hboth)
  · exact told_ok _
  · exact told_ok _
  · exact told_ok _
  · exact told_singleton _

/-- None of the nine parts of a rule is refused without a defect. -/
theorem told_check (v : Value) : Told (check v) := by
  refine told_bind (told_one _) fun m => told_map ?_ _
  exact told_both (told_one _) <| told_both (told_one _) <| told_both (told_one _) <|
    told_both (told_addressesOf _ m _) <| told_both (told_addressesOf _ m _) <|
    told_both (told_portsOf m) <| told_both (told_directionOf m) <|
    told_both (told_one _) (told_one _)

end Rule

theorem NamedSet.told_check (v : Value) : Told (check v) := by
  refine told_bind (told_one _) fun m => told_map (told_both (told_one _) ?_) _
  refine told_bind (told_both (told_one _) (told_one _)) fun x => ?_
  exact told_bind (told_all _) fun elements => told_ok _

theorem Mapping.told_check (v : Value) : Told (check v) := by
  refine told_bind (told_one _) fun m => told_map ?_ _
  exact told_both (told_one _) <| told_both (told_one _) <| told_both (told_one _) (told_one _)

/-- The checked entries of a policy, each in the place of the entry that it comes from. -/
structure Entries (s : Spec) (p : Ruleset) : Prop where
  rules : List.Forall₂ (fun v r => Rule.check v = .ok r) s.rules p.rules
  sets : List.Forall₂ (fun v d => NamedSet.check v = .ok d) s.sets p.sets
  mappings : List.Forall₂ (fun v m => Mapping.check v = .ok m) s.mappings p.mappings

/-- What a policy has to be to pass. -/
structure Accepted (s : Spec) (p : Ruleset) : Prop extends Entries s p where
  defaults : p.defaults = s.defaults
  distinct : (p.sets.map (·.name)).Nodup
  declared : ∀ r ∈ p.rules, ∀ u ∈ r.setUses, ∃ d ∈ p.sets, d.name = u.1 ∧ d.type = u.2

def Spec.HasInvalid (s : Spec) : Prop :=
  (∃ v ∈ s.rules, ∀ r, Rule.check v ≠ .ok r) ∨ (∃ v ∈ s.sets, ∀ d, NamedSet.check v ≠ .ok d) ∨
    ∃ v ∈ s.mappings, ∀ m, Mapping.check v ≠ .ok m

/-- The defects of all entries of a kind, each with the place of its entry. -/
def invalidIssues {α : Type} (subject : Nat → Subject) (check : Value → Checked α) (l : List Value) :
    List Issue :=
  l.zipIdx.flatMap fun x => (check x.1).defects.map (.invalid (subject x.2))

/-- Whether the set of a use is missing, or is of another type. -/
def isUnmet (sets : List NamedSet) (u : String × SetType) : Bool :=
  !sets.any fun d => d.name = u.1 && d.type = u.2

/-- Such uses of the rules, each with the place of its rule. -/
def unmetUses (p : Ruleset) : List (Nat × String × SetType) :=
  p.rules.zipIdx.flatMap fun x => (x.1.setUses.filter (isUnmet p.sets)).map (x.2, ·)

/-- The issue that such a use calls for. -/
inductive Reports (sets : List NamedSet) : Nat × String × SetType → Issue → Prop where
  | undeclared {i : Nat} {name : String} {type : SetType} (h : ∀ d ∈ sets, d.name ≠ name) :
      Reports sets (i, name, type) (.undeclared i name)
  | wrongType {i : Nat} {d : NamedSet} {type : SetType} (hd : d ∈ sets) (h : d.type ≠ type) :
      Reports sets (i, d.name, type) (.wrongType i d.name d.type type)

/-- Some issue is about the entry of every place at which the check refuses it. -/
def TellsOf {α : Type} (subject : Nat → Subject) (check : Value → Checked α) (l : List Value)
    (issues : List Issue) : Prop :=
  ∀ i v, l[i]? = some v → (∀ x, check v ≠ .ok x) → ∃ d, .invalid (subject i) d ∈ issues

/-- What the issues of a policy are that does not pass. Names and uses are looked at if all entries pass. -/
structure Refused (s : Spec) (issues : List Issue) : Prop where
  cases : s.HasInvalid ∨ ∃ p, Entries s p
  invalid : s.HasInvalid → issues = invalidIssues .rule Rule.check s.rules ++
    invalidIssues .set NamedSet.check s.sets ++ invalidIssues .mapping Mapping.check s.mappings
  rules : TellsOf .rule Rule.check s.rules issues
  sets : TellsOf .set NamedSet.check s.sets issues
  mappings : TellsOf .mapping Mapping.check s.mappings issues
  duplicates : ∀ p, Entries s p →
    countKind .duplicate issues = s.sets.length - (p.sets.map (·.name)).toFinset.card
  references : ∀ p, Entries s p → (p.sets.map (·.name)).Nodup →
    List.Forall₂ (Reports p.sets) (unmetUses p) issues

namespace Batch

variable {α : Type} {check : Value → Checked α} {l : List Value}

theorem issuesFrom_eq (subject : Nat → Subject) (check : Value → Checked α) (l : List Value) (i : Nat) :
    issuesFrom subject i (l.map check) =
      (l.zipIdx i).flatMap fun x => (check x.1).defects.map (.invalid (subject x.2)) := by
  induction l generalizing i with
  | nil => rfl
  | cons v l ih => rw [List.map_cons, issuesFrom, ih, List.zipIdx_cons, List.flatMap_cons]

/-- Entries have no issue exactly if all of them pass. -/
theorem issuesFrom_eq_nil {subject : Nat → Subject} (h : ∀ v, Told (check v)) (i : Nat) :
    issuesFrom subject i (l.map check) = [] ↔ ∀ v ∈ l, ∃ x, check v = .ok x := by
  induction l generalizing i with
  | nil => simp [issuesFrom]
  | cons v l ih => simp [issuesFrom, ih (i + 1), defects_eq_nil (h v)]

theorem sound_of_forall₂ {xs : List α} (h : List.Forall₂ (fun v x => check v = .ok x) l xs) :
    sound (l.map check) = xs := by
  induction h with
  | nil => rfl
  | cons hx _ ih =>
    rw [sound] at ih ⊢
    rw [List.map_cons, hx, List.filterMap_cons, ih]
    rfl

/-- What was made of entries is what their check gives. -/
theorem mem_iff_of_forall₂ {xs : List α} (h : List.Forall₂ (fun v x => check v = .ok x) l xs) {x : α} :
    x ∈ xs ↔ ∃ v ∈ l, check v = .ok x := by
  rw [← sound_of_forall₂ h]
  simp [sound, toOption_eq_some]

theorem forall₂_sound (h : ∀ v ∈ l, ∃ x, check v = .ok x) :
    List.Forall₂ (fun v x => check v = .ok x) l (sound (l.map check)) := by
  induction l with
  | nil => exact .nil
  | cons v l ih =>
    obtain ⟨x, hx⟩ := h v (by simp)
    have ih := ih fun u hu => h u (by simp [hu])
    rw [sound] at ih ⊢
    rw [List.map_cons, hx, List.filterMap_cons]
    exact .cons hx ih

theorem exists_of_forall₂ {xs : List α} (h : List.Forall₂ (fun v x => check v = .ok x) l xs) :
    ∀ v ∈ l, ∃ x, check v = .ok x := by
  induction h with
  | nil => simp
  | cons hx _ ih =>
    intro v hv
    rcases List.mem_cons.1 hv with rfl | hv
    · exact ⟨_, hx⟩
    · exact ih v hv

/-- The issues of an entry stand among those of its list. -/
theorem tellsOf_invalidIssues {subject : Nat → Subject} (h : ∀ v, Told (check v)) :
    TellsOf subject check l (invalidIssues subject check l) := by
  intro i v hv hrefused
  have hne : (check v).defects ≠ [] := by
    intro hnil
    obtain ⟨x, hx⟩ := (defects_eq_nil (h v)).1 hnil
    exact hrefused x hx
  obtain ⟨d, hd⟩ := List.exists_mem_of_ne_nil _ hne
  have hmem : (v, i) ∈ l.zipIdx := List.mem_zipIdx_iff_getElem?.2 hv
  exact ⟨d, List.mem_flatMap.2 ⟨(v, i), hmem, List.mem_map_of_mem hd⟩⟩

/-- Of the sets that are left, one for each name that is new is not a repetition. -/
theorem length_repeatedNames (seen : List String) (sets : List NamedSet) :
    (repeatedNames seen sets).length + ((sets.map (·.name)).toFinset \ seen.toFinset).card =
      sets.length := by
  induction sets generalizing seen with
  | nil => simp [repeatedNames]
  | cons d sets ih =>
    by_cases hd : d.name ∈ seen
    · have hnames : ((d :: sets).map (·.name)).toFinset \ seen.toFinset =
          (sets.map (·.name)).toFinset \ seen.toFinset := by
        rw [List.map_cons, List.toFinset_cons, Finset.insert_sdiff_of_mem _ (by simpa using hd)]
      rw [repeatedNames, if_pos hd, hnames, List.length_cons, List.length_cons, ← ih seen]
      omega
    · have hnames : ((d :: sets).map (·.name)).toFinset \ seen.toFinset =
          insert d.name ((sets.map (·.name)).toFinset \ (d.name :: seen).toFinset) := by
        ext n
        by_cases hn : n = d.name <;> simp [hn, hd]
      rw [repeatedNames, if_neg hd, hnames, Finset.card_insert_of_notMem (by simp), List.length_cons,
        ← ih (d.name :: seen)]
      omega

theorem kind_of_mem_repeatedNames {seen : List String} {sets : List NamedSet} {x : Issue}
    (h : x ∈ repeatedNames seen sets) : x.kind = .duplicate := by
  induction sets generalizing seen with
  | nil => cases h
  | cons d sets ih =>
    rw [repeatedNames] at h
    split at h
    · rcases List.mem_cons.1 h with rfl | h
      · rfl
      · exact ih h
    · exact ih h

theorem kind_of_useIssue? {sets : List NamedSet} {i : Nat} {u : String × SetType} {x : Issue}
    (h : useIssue? sets i u = some x) : x.kind = .crossReference := by
  rw [useIssue?] at h
  split at h
  · cases h
    rfl
  · split at h
    · cases h
    · cases h
      rfl

theorem kind_of_mem_useIssuesFrom {sets : List NamedSet} {i : Nat} {rules : List Rule} {x : Issue}
    (h : x ∈ useIssuesFrom sets i rules) : x.kind = .crossReference := by
  induction rules generalizing i with
  | nil => cases h
  | cons r rules ih =>
    rcases List.mem_append.1 h with h | h
    · obtain ⟨u, -, hu⟩ := List.mem_filterMap.1 h
      exact kind_of_useIssue? hu
    · exact ih h

theorem countKind_referenceIssues (rules : List Rule) (sets : List NamedSet) :
    countKind .duplicate (referenceIssues rules sets) =
      sets.length - (sets.map (·.name)).toFinset.card := by
  have hlength := length_repeatedNames [] sets
  have hall : countKind .duplicate (repeatedNames [] sets) = (repeatedNames [] sets).length :=
    List.countP_eq_length.2 fun x hx => by simp [kind_of_mem_repeatedNames hx]
  have hnone : countKind .duplicate (useIssuesFrom sets 0 rules) = 0 :=
    List.countP_eq_zero.2 fun x hx => by simp [kind_of_mem_useIssuesFrom hx]
  rw [List.toFinset_nil, Finset.sdiff_empty] at hlength
  rw [countKind] at hall hnone
  rw [countKind, referenceIssues, List.countP_append, hall, hnone]
  omega

/-- A name of a set that is declared once stands for that set. -/
theorem declared?_eq_some {sets : List NamedSet} (h : (sets.map (·.name)).Nodup) {d : NamedSet}
    {name : String} : declared? sets name = some d ↔ d ∈ sets ∧ d.name = name := by
  have hfound : ∀ e, declared? sets name = some e → e ∈ sets ∧ e.name = name := by
    intro e he
    rw [declared?] at he
    exact ⟨List.mem_reverse.1 (List.mem_of_find?_eq_some he), by simpa using List.find?_some he⟩
  constructor
  · exact hfound d
  · rintro ⟨hd, rfl⟩
    cases hlast : declared? sets d.name with
    | none =>
      have hno := List.find?_eq_none.1 hlast d (List.mem_reverse.2 hd)
      simp at hno
    | some e =>
      obtain ⟨he, hname⟩ := hfound e hlast
      rw [List.inj_on_of_nodup_map h he hd hname]

theorem declared?_eq_none {sets : List NamedSet} {name : String} :
    declared? sets name = none ↔ ∀ d ∈ sets, d.name ≠ name := by
  simp [declared?]

theorem isUnmet_eq_false {sets : List NamedSet} {u : String × SetType} :
    isUnmet sets u = false ↔ ∃ d ∈ sets, d.name = u.1 ∧ d.type = u.2 := by
  simp [isUnmet]

/-- A use is met, or it has one issue. -/
theorem useIssue?_cases {sets : List NamedSet} (h : (sets.map (·.name)).Nodup) (i : Nat)
    (u : String × SetType) :
    (useIssue? sets i u = none ∧ isUnmet sets u = false) ∨
      ∃ x, useIssue? sets i u = some x ∧ isUnmet sets u = true ∧ Reports sets (i, u) x := by
  obtain ⟨name, type⟩ := u
  cases hd : declared? sets name with
  | none =>
    have hno := declared?_eq_none.1 hd
    have hunmet : isUnmet sets (name, type) = true := by
      simpa [isUnmet] using fun d hmem hname => absurd hname (hno d hmem)
    exact Or.inr ⟨.undeclared i name, by simp [useIssue?, hd], hunmet, .undeclared hno⟩
  | some d =>
    obtain ⟨hmem, rfl⟩ := (declared?_eq_some h).1 hd
    by_cases ht : d.type = type
    · exact Or.inl ⟨by simp [useIssue?, hd, ht], isUnmet_eq_false.2 ⟨d, hmem, rfl, ht⟩⟩
    · have hunmet : isUnmet sets (d.name, type) = true := by
        refine Bool.eq_true_of_not_eq_false fun hmet => ?_
        obtain ⟨e, he, hname, htype⟩ := isUnmet_eq_false.1 hmet
        rw [List.inj_on_of_nodup_map h he hmem hname] at htype
        exact ht htype
      exact Or.inr ⟨.wrongType i d.name d.type type, by simp [useIssue?, hd, ht], hunmet,
        .wrongType hmem ht⟩

theorem forall₂_useIssues {sets : List NamedSet} (h : (sets.map (·.name)).Nodup) (i : Nat)
    (uses : List (String × SetType)) :
    List.Forall₂ (Reports sets) ((uses.filter (isUnmet sets)).map (i, ·))
      (uses.filterMap (useIssue? sets i)) := by
  induction uses with
  | nil => exact .nil
  | cons u uses ih =>
    rcases useIssue?_cases h i u with ⟨hnone, hmet⟩ | ⟨x, hsome, hunmet, hreports⟩
    · rwa [List.filter_cons_of_neg (by simp [hmet]), List.filterMap_cons_none hnone]
    · rw [List.filter_cons_of_pos hunmet, List.filterMap_cons_some hsome]
      exact .cons hreports ih

/-- With distinct names, each use that is not met has its issue, in the order of the uses. -/
theorem forall₂_useIssuesFrom {sets : List NamedSet} (h : (sets.map (·.name)).Nodup)
    (rules : List Rule) (i : Nat) :
    List.Forall₂ (Reports sets)
      ((rules.zipIdx i).flatMap fun x => (x.1.setUses.filter (isUnmet sets)).map (x.2, ·))
      (useIssuesFrom sets i rules) := by
  induction rules generalizing i with
  | nil => exact .nil
  | cons r rules ih =>
    rw [List.zipIdx_cons, List.flatMap_cons, useIssuesFrom]
    exact List.rel_append (forall₂_useIssues h i r.setUses) (ih (i + 1))

theorem repeatedNames_of_nodup {sets : List NamedSet} (h : (sets.map (·.name)).Nodup) :
    repeatedNames [] sets = [] := by
  have hlength := length_repeatedNames [] sets
  rw [List.toFinset_nil, Finset.sdiff_empty, List.toFinset_card_of_nodup h, List.length_map] at hlength
  exact List.eq_nil_of_length_eq_zero (by omega)

theorem referenceIssues_eq_nil {rules : List Rule} {sets : List NamedSet} :
    referenceIssues rules sets = [] ↔ (sets.map (·.name)).Nodup ∧
      ∀ r ∈ rules, ∀ u ∈ r.setUses, ∃ d ∈ sets, d.name = u.1 ∧ d.type = u.2 := by
  constructor
  · intro hnil
    obtain ⟨hnames, huses⟩ := List.append_eq_nil_iff.1 hnil
    exact ⟨(distinct_of_repeatedNames hnames).2, declared_of_useIssuesFrom huses⟩
  · rintro ⟨hnodup, hdeclared⟩
    have hunmet : (rules.zipIdx.flatMap fun x =>
        (x.1.setUses.filter (isUnmet sets)).map (x.2, ·)) = [] := by
      refine List.flatMap_eq_nil_iff.2 fun x hx => List.map_eq_nil_iff.2 ?_
      refine List.filter_eq_nil_iff.2 fun u hu => ?_
      rw [isUnmet_eq_false.2 (hdeclared x.1 (List.fst_mem_of_mem_zipIdx hx) u hu)]
      exact Bool.false_ne_true
    have huses := forall₂_useIssuesFrom hnodup rules 0
    rw [hunmet] at huses
    rw [referenceIssues, repeatedNames_of_nodup hnodup, List.forall₂_nil_left_iff.1 huses]
    rfl

end Batch

namespace Spec

variable {s : Spec} {p : Ruleset}

theorem entryIssues_eq (s : Spec) : s.entryIssues = invalidIssues .rule Rule.check s.rules ++
    invalidIssues .set NamedSet.check s.sets ++ invalidIssues .mapping Mapping.check s.mappings := by
  rw [entryIssues, Batch.issuesFrom_eq, Batch.issuesFrom_eq, Batch.issuesFrom_eq]
  rfl

theorem entryIssues_eq_nil : s.entryIssues = [] ↔ (∀ v ∈ s.rules, ∃ r, Rule.check v = .ok r) ∧
    (∀ v ∈ s.sets, ∃ d, NamedSet.check v = .ok d) ∧
    ∀ v ∈ s.mappings, ∃ m, Mapping.check v = .ok m := by
  rw [entryIssues, List.append_eq_nil_iff, List.append_eq_nil_iff, and_assoc,
    Batch.issuesFrom_eq_nil Rule.told_check, Batch.issuesFrom_eq_nil NamedSet.told_check,
    Batch.issuesFrom_eq_nil Mapping.told_check]

theorem hasInvalid_iff : s.HasInvalid ↔ s.entryIssues ≠ [] := by
  rw [Ne, entryIssues_eq_nil]
  simp only [HasInvalid, not_and_or, not_forall, not_exists, exists_prop]

/-- Entries that pass are those of the sound part. -/
theorem entries_iff : Entries s p ↔ s.entryIssues = [] ∧ p.rules = s.soundPart.rules ∧
    p.sets = s.soundPart.sets ∧ p.mappings = s.soundPart.mappings := by
  rw [entryIssues_eq_nil]
  constructor
  · intro h
    refine ⟨⟨Batch.exists_of_forall₂ h.rules, Batch.exists_of_forall₂ h.sets,
      Batch.exists_of_forall₂ h.mappings⟩, ?_, ?_, ?_⟩
    · exact (Batch.sound_of_forall₂ h.rules).symm
    · exact (Batch.sound_of_forall₂ h.sets).symm
    · exact (Batch.sound_of_forall₂ h.mappings).symm
  · rintro ⟨⟨hrules, hsets, hmappings⟩, hr, hd, hm⟩
    constructor
    · rw [hr]
      exact Batch.forall₂_sound hrules
    · rw [hd]
      exact Batch.forall₂_sound hsets
    · rw [hm]
      exact Batch.forall₂_sound hmappings

theorem hasInvalid_or_entries (s : Spec) : s.HasInvalid ∨ ∃ p, Entries s p := by
  by_cases h : s.entryIssues = []
  · exact Or.inr ⟨s.soundPart, entries_iff.2 ⟨h, rfl, rfl, rfl⟩⟩
  · exact Or.inl (hasInvalid_iff.2 h)

theorem issues_of_entries (h : Entries s p) :
    s.issues = Batch.referenceIssues p.rules p.sets := by
  obtain ⟨hnone, hrules, hsets, -⟩ := entries_iff.1 h
  rw [issues, hnone, hrules, hsets]

theorem issues_of_hasInvalid (h : s.HasInvalid) : s.issues = s.entryIssues := by
  have hne := hasInvalid_iff.1 h
  rw [issues]
  split
  · rename_i hnil
    exact absurd hnil hne
  · rfl

theorem check_eq_ok : s.check = .ok p ↔ s.issues = [] ∧ p = s.soundPart := by
  rw [check]
  split
  · rename_i hnil
    rw [hnil, Except.ok.injEq, eq_comm]
    simp
  · rename_i hne
    constructor
    · intro h
      cases h
    · rintro ⟨hnil, -⟩
      exact absurd hnil (by simpa using hne)

theorem check_eq_error {l : List Issue} : s.check = .error l ↔ s.issues = l ∧ l ≠ [] := by
  rw [check]
  cases s.issues with
  | nil =>
    constructor
    · intro h
      cases h
    · exact fun h => absurd h.1.symm h.2
  | cons x xs =>
    constructor
    · intro h
      cases h
      exact ⟨rfl, List.cons_ne_nil x xs⟩
    · rintro ⟨rfl, -⟩
      rfl

theorem check_of_issues (h : s.issues ≠ []) : s.check = .error s.issues := check_eq_error.2 ⟨rfl, h⟩

theorem accepted_iff : s.check = .ok p ↔ Accepted s p := by
  rw [check_eq_ok]
  constructor
  · rintro ⟨hissues, rfl⟩
    have hvalid : s.entryIssues = [] := by
      by_contra hne
      rw [issues_of_hasInvalid (hasInvalid_iff.2 hne)] at hissues
      exact hne hissues
    have hentries : Entries s s.soundPart := entries_iff.2 ⟨hvalid, rfl, rfl, rfl⟩
    rw [issues_of_entries hentries, Batch.referenceIssues_eq_nil] at hissues
    exact ⟨hentries, rfl, hissues.1, hissues.2⟩
  · intro h
    obtain ⟨-, hrules, hsets, hmappings⟩ := entries_iff.1 h.toEntries
    refine ⟨?_, ?_⟩
    · rw [issues_of_entries h.toEntries]
      exact Batch.referenceIssues_eq_nil.2 ⟨h.distinct, h.declared⟩
    · have hdefaults : p.defaults = s.soundPart.defaults := h.defaults
      cases p
      simp_all

theorem tellsOf_append {α : Type} {subject : Nat → Subject} {check : Value → Checked α} {l : List Value}
    {a b : List Issue} (h : TellsOf subject check l a ∨ TellsOf subject check l b) :
    TellsOf subject check l (a ++ b) := by
  intro i v hv hrefused
  rcases h with h | h
  · obtain ⟨d, hd⟩ := h i v hv hrefused
    exact ⟨d, List.mem_append_left _ hd⟩
  · obtain ⟨d, hd⟩ := h i v hv hrefused
    exact ⟨d, List.mem_append_right _ hd⟩

/-- Every place at which an entry is refused is told of among the issues of entries. -/
theorem tellsOf_entryIssues (s : Spec) : TellsOf .rule Rule.check s.rules s.entryIssues ∧
    TellsOf .set NamedSet.check s.sets s.entryIssues ∧
    TellsOf .mapping Mapping.check s.mappings s.entryIssues := by
  have hrules : TellsOf .rule Rule.check s.rules (invalidIssues .rule Rule.check s.rules) :=
    Batch.tellsOf_invalidIssues Rule.told_check
  have hsets : TellsOf .set NamedSet.check s.sets (invalidIssues .set NamedSet.check s.sets) :=
    Batch.tellsOf_invalidIssues NamedSet.told_check
  have hmappings : TellsOf .mapping Mapping.check s.mappings
      (invalidIssues .mapping Mapping.check s.mappings) :=
    Batch.tellsOf_invalidIssues Mapping.told_check
  rw [entryIssues_eq]
  exact ⟨tellsOf_append (.inl (tellsOf_append (.inl hrules))),
    tellsOf_append (.inl (tellsOf_append (.inr hsets))), tellsOf_append (.inr hmappings)⟩

theorem refused_of_check {l : List Issue} (h : s.check = .error l) : Refused s l := by
  obtain ⟨rfl, -⟩ := check_eq_error.1 h
  obtain ⟨hrules, hsets, hmappings⟩ := tellsOf_entryIssues s
  refine ⟨hasInvalid_or_entries s, fun hinvalid => ?_, fun i v hv hr => ?_, fun i v hv hr => ?_,
    fun i v hv hr => ?_, fun p hp => ?_, fun p hp hdistinct => ?_⟩
  · rw [issues_of_hasInvalid hinvalid, entryIssues_eq]
  · have hinvalid : s.HasInvalid := .inl ⟨v, List.mem_of_getElem? hv, hr⟩
    rw [issues_of_hasInvalid hinvalid]
    exact hrules i v hv hr
  · have hinvalid : s.HasInvalid := .inr (.inl ⟨v, List.mem_of_getElem? hv, hr⟩)
    rw [issues_of_hasInvalid hinvalid]
    exact hsets i v hv hr
  · have hinvalid : s.HasInvalid := .inr (.inr ⟨v, List.mem_of_getElem? hv, hr⟩)
    rw [issues_of_hasInvalid hinvalid]
    exact hmappings i v hv hr
  · rw [issues_of_entries hp, Batch.countKind_referenceIssues, hp.sets.length_eq]
  · rw [issues_of_entries hp, Batch.referenceIssues, Batch.repeatedNames_of_nodup hdistinct]
    exact Batch.forall₂_useIssuesFrom hdistinct p.rules 0

/-- A policy passes as a whole with all its entries, or it is refused with all that is wrong with it. -/
theorem check_accounts (s : Spec) :
    (∀ p, s.check = .ok p ↔ Accepted s p) ∧ ∀ l, s.check = .error l → Refused s l :=
  ⟨fun _ => accepted_iff, fun _ => refused_of_check⟩

/-- Web ports from one interface. -/
def webRule : Value :=
  .record [("action", .string "accept"), ("version", .ofNat 4), ("protocol", .string "tcp"),
    ("source", .array [.string "any"]), ("destination", .array [.string "any"]),
    ("port", .array [.string "@web"]), ("iiface", .string "eth0")]

def webSet : Value :=
  .record [("name", .string "web"), ("type", .string "inet_service"), ("elements", .array [.ofNat 80])]

/-- The rule and others with the given sets. -/
def webPolicy (others sets : List Value) : Spec := ⟨webRule :: others, sets, [], {}⟩

/-- The rule with its set passes. A second set of the name is one issue; an entry that is no rule has an
issue of its own, and the names are not looked at. -/
theorem check_accounts_web :
    (∃ p, (webPolicy [] [webSet]).check = .ok p ∧ Accepted (webPolicy [] [webSet]) p) ∧
    (∃ l, (webPolicy [] [webSet, webSet]).check = .error l ∧ Refused (webPolicy [] [webSet, webSet]) l ∧
      countKind .duplicate l = 1) ∧
    ∃ l d, (webPolicy [.null] [webSet, webSet]).check = .error l ∧
      Refused (webPolicy [.null] [webSet, webSet]) l ∧ .invalid (.rule 1) d ∈ l := by
  refine ⟨?_, ?_, ?_⟩
  · have hok : (webPolicy [] [webSet]).check.toOption.isSome = true := by decide +kernel
    cases hp : (webPolicy [] [webSet]).check with
    | ok p => exact ⟨p, rfl, ((check_accounts _).1 p).1 hp⟩
    | error l =>
      rw [hp] at hok
      cases hok
  · have hcount : countKind .duplicate (webPolicy [] [webSet, webSet]).issues = 1 := by decide +kernel
    have hne : (webPolicy [] [webSet, webSet]).issues ≠ [] := by
      intro hnil
      rw [hnil] at hcount
      cases hcount
    have herror := check_of_issues hne
    exact ⟨_, herror, (check_accounts _).2 _ herror, hcount⟩
  · have hnull : Rule.check .null = .error [.notObject "rule" .null] := rfl
    have hrefuses : ∀ r, Rule.check .null ≠ .ok r := by
      intro r hr
      cases hnull.symm.trans hr
    have hinvalid : (webPolicy [.null] [webSet, webSet]).HasInvalid :=
      .inl ⟨.null, by simp [webPolicy], hrefuses⟩
    have hne := hasInvalid_iff.1 hinvalid
    rw [← issues_of_hasInvalid hinvalid] at hne
    have herror := check_of_issues hne
    have hrefused := (check_accounts _).2 _ herror
    obtain ⟨d, hd⟩ := hrefused.rules 1 .null rfl hrefuses
    exact ⟨_, d, herror, hrefused, hd⟩

end Spec
end Policy
end TwinWall
