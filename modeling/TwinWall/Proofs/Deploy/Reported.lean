import Mathlib.Data.List.Forall2
import TwinWall.Proofs.Deploy.Apart
import TwinWall.Proofs.Text.Endings
import TwinWall.Proofs.Text.Trimmed

/-! What a failure tells of the steps that succeeded. Steps are grouped by their nodes and looked up by the hosts
of these; with one role for each host every step stands in the report once, in the group of its node. -/
namespace TwinWall
namespace Deploy

open Remote Text

section Keys

variable {α β : Type} [DecidableEq β]

/-- A filter that keeps two values keeps which of them is first. -/
theorem idxOf_lt_of_filter {p : β → Bool} {l : List β} {a b : β} (ha : p a = true) (hb : p b = true)
    (h : (l.filter p).idxOf a < (l.filter p).idxOf b) : l.idxOf a < l.idxOf b := by
  induction l with
  | nil => simp at h
  | cons x l ih =>
    by_cases hxa : x = a
    · subst hxa
      by_cases hxb : x = b
      · subst hxb
        exact absurd h (Nat.lt_irrefl _)
      · simp [hxb]
    · by_cases hxb : x = b
      · subst hxb
        simp [hb, List.idxOf_cons] at h
      · have hrest : (l.filter p).idxOf a < (l.filter p).idxOf b := by
          by_cases hx : p x = true
          · simpa [List.filter_cons, hx, List.idxOf_cons, hxa, hxb] using h
          · simpa [List.filter_cons, hx] using h
        simpa [List.idxOf_cons, hxa, hxb] using ih hrest

/-- Values without repetitions stand in the order in which they are first there. -/
theorem pairwise_eraseDups (l : List β) :
    l.eraseDups.Pairwise fun a b => l.idxOf a < l.idxOf b := by
  -- on the length, since the rest is taken from a list without the first value
  induction hn : l.length using Nat.strongRecOn generalizing l with
  | _ n ih =>
    cases l with
    | nil => exact .nil
    | cons x l =>
      subst hn
      have hlt : (l.filter fun y => !y == x).length < (x :: l).length :=
        Nat.lt_succ_of_le (List.length_filter_le _ l)
      have hmem : ∀ y ∈ (l.filter fun y => !y == x).eraseDups, (!y == x) = true := fun y hy =>
        (List.mem_filter.1 (List.mem_eraseDups.1 hy)).2
      have hne : ∀ y ∈ (l.filter fun y => !y == x).eraseDups, x ≠ y := by
        rintro y hy rfl
        simpa using hmem x hy
      rw [List.eraseDups_cons, List.pairwise_cons]
      refine ⟨fun y hy => by simp [hne y hy], ?_⟩
      refine (ih _ hlt _ rfl).imp_of_mem fun {a b} ha hb hab => ?_
      have hfirst := idxOf_lt_of_filter (p := fun y => !y == x) (hmem a ha) (hmem b hb) hab
      simpa [List.idxOf_cons, hne a ha, hne b hb] using hfirst

/-- What is put in groups by distinct keys, each key having its group, is neither lost nor doubled. -/
theorem perm_flatMap_filter (key : α → β) {ks : List β} (hks : ks.Nodup) {l : List α}
    (hl : ∀ x ∈ l, key x ∈ ks) : (ks.flatMap fun k => l.filter (key · = k)).Perm l := by
  induction ks generalizing l with
  | nil =>
    cases l with
    | nil => exact .nil
    | cons x l => exact absurd (hl x List.mem_cons_self) List.not_mem_nil
  | cons k ks ih =>
    obtain ⟨hk, hks⟩ := List.nodup_cons.1 hks
    have hrest : ∀ x ∈ l.filter (fun x => !decide (key x = k)), key x ∈ ks := by
      intro x hx
      obtain ⟨hmem, hne⟩ := List.mem_filter.1 hx
      refine (List.mem_cons.1 (hl x hmem)).resolve_left ?_
      simpa using hne
    have hgroup : ∀ k' ∈ ks, (l.filter fun x => !decide (key x = k)).filter (key · = k') =
        l.filter (key · = k') := by
      intro k' hk'
      rw [List.filter_filter]
      refine List.filter_congr fun x _ => ?_
      by_cases hx : key x = k'
      · have hne : k' ≠ k := fun heq => hk (heq ▸ hk')
        simp [hx, hne]
      · simp [hx]
    have hperm := ih hks hrest
    rw [List.flatMap_congr hgroup] at hperm
    rw [List.flatMap_cons]
    exact (List.Perm.append_left _ hperm).trans (List.filter_append_perm _ l)

end Keys

/-- Every host is used with a single role. -/
def OneRole (r : Record) : Prop :=
  ∀ d ∈ r, ∀ e ∈ r, d.node.host = e.node.host → d.node.role = e.node.role

instance (r : Record) : Decidable (OneRole r) :=
  inferInstanceAs (Decidable (∀ d ∈ r, ∀ e ∈ r, d.node.host = e.node.host → d.node.role = e.node.role))

/-- What an operator is told that a step was. -/
def stepWord : Step → String
  | .writing => "writing-config"
  | .checking => "validating-syntax"
  | .lookingUp => "resolving-existing-table"
  | .flushing => "flushing"
  | .applying => "applying"
  | .cleaning => "cleaning-up"
  | .listing => "reading-table"

def roleWord : Role → String
  | .enabled => "enabled"
  | .disabled => "disabled"

/-- The line for a step: its name, its status, and the first line that it wrote between its blanks. -/
inductive TellsStep (d : Done) : String → Prop
  | silent (blank : allBlank d.output.stdout.toList = true) :
    TellsStep d ("    - " ++ stepWord d.step ++ " (exit " ++ Decimal.ofInt d.output.exit ++ ")")
  | wrote {t l : List Char} (trims : Trims d.output.stdout.toList t) (ne_nil : t ≠ [])
    (first : FirstLine t l) :
    TellsStep d ("    - " ++ stepWord d.step ++ " (exit " ++ Decimal.ofInt d.output.exit ++ ")" ++
      " stdout: " ++ String.ofList l)

/-- The part of a report that is headed by the host and the role of a node, with the steps that its lines stand
for. -/
structure Group where
  node : Node
  steps : Record
  lines : List String

def Group.text (g : Group) : String :=
  "  " ++ g.node.host ++ " (" ++ roleWord g.node.role ++ "):\n" ++ String.join (g.lines.map (· ++ "\n"))

/-- A group for each node of a record, and a line in its node's group for each step. -/
structure Grouped (r : Record) (gs : List Group) : Prop where
  nodes : ∀ n, n ∈ gs.map Group.node ↔ ∃ d ∈ r, d.node = n
  order : gs.Pairwise fun g h => (r.map Done.node).idxOf g.node < (r.map Done.node).idxOf h.node
  own : ∀ g ∈ gs, ∀ d ∈ g.steps, d.node = g.node
  inOrder : ∀ g ∈ gs, g.steps.Sublist r
  once : (gs.flatMap Group.steps).Perm r
  lines : ∀ g ∈ gs, List.Forall₂ TellsStep g.steps g.lines

/-- The text that lists the steps of a record. -/
inductive Lists : Record → String → Prop
  | none : Lists [] "  (none)\n"
  | groups {r : Record} {gs : List Group} (ne_nil : r ≠ []) (grouped : Grouped r gs) :
    Lists r (String.join (gs.map Group.text))

section Report

variable {r : Record}

theorem stepWord_eq (s : Step) : stepWord s = s.text := by
  cases s <;> rfl

theorem heading_eq (n : Node) : "  " ++ n.host ++ " (" ++ roleWord n.role ++ "):\n" = "  " ++ n.text ++ ":\n" := by
  have hrole : roleWord n.role = n.role.text := by cases n.role <;> rfl
  have hclose : "):\n" = ")" ++ ":\n" := rfl
  simp only [Node.text, hrole, hclose, String.append_assoc]

theorem tellsStep_doneLine (d : Done) : TellsStep d (Failure.doneLine d) := by
  have htext : trim d.output.stdout = "" ↔ trimmed d.output.stdout.toList = [] := by
    rw [← String.toList_inj, toList_trim]
    rfl
  simp only [Failure.doneLine, ← stepWord_eq]
  split
  · next h => exact .silent (trimmed_eq_nil_iff.1 (htext.1 h))
  · next h =>
    have hne : trimmed d.output.stdout.toList ≠ [] := fun hnil => h (htext.2 hnil)
    have hfirst : firstLine (trim d.output.stdout) =
        String.ofList ((linesOf (trimmed d.output.stdout.toList)).headD []) := by
      rw [firstLine, lines, toList_trim]
      cases linesOf (trimmed d.output.stdout.toList) <;> rfl
    rw [hfirst]
    exact .wrote (trims_trimmed _) hne (firstLine_linesOf hne)

theorem mem_nodes {n : Node} : n ∈ r.nodes ↔ ∃ d ∈ r, d.node = n := by
  rw [Record.nodes, List.mem_eraseDups, List.mem_map]

theorem pairwise_nodes (r : Record) :
    r.nodes.Pairwise fun n n' => (r.map Done.node).idxOf n < (r.map Done.node).idxOf n' :=
  pairwise_eraseDups (r.map Done.node)

theorem nodup_nodes (r : Record) : r.nodes.Nodup :=
  (pairwise_nodes r).imp fun {n n'} h heq => by
    subst heq
    exact Nat.lt_irrefl _ h

theorem OneRole.ofHost (h : OneRole r) {n : Node} (hn : n ∈ r.nodes) :
    r.ofHost n.host = r.filter (·.node = n) := by
  obtain ⟨e, he, rfl⟩ := mem_nodes.1 hn
  refine List.filter_congr fun d hd => ?_
  rw [decide_eq_decide]
  constructor
  · intro hhost
    have hrole := h d hd e he hhost
    cases hd' : d.node
    cases he' : e.node
    rw [hd', he'] at hhost hrole
    exact congrArg₂ Node.mk hhost hrole
  · exact congrArg Node.host

/-- The group of a node, as it is told. -/
def groupOf (r : Record) (n : Node) : Group where
  node := n
  steps := r.filter (·.node = n)
  lines := (r.filter (·.node = n)).map Failure.doneLine

theorem grouped_groupOf (r : Record) : Grouped r (r.nodes.map (groupOf r)) where
  nodes n := by
    have hid : (Group.node ∘ groupOf r) = id := rfl
    rw [List.map_map, hid, List.map_id, mem_nodes]
  order := List.pairwise_map.2 (pairwise_nodes r)
  own := by
    rw [List.forall_mem_map]
    intro n _ d hd
    exact of_decide_eq_true (List.mem_filter.1 hd).2
  inOrder := by
    rw [List.forall_mem_map]
    exact fun n _ => List.filter_sublist
  once := by
    rw [List.flatMap_map]
    exact perm_flatMap_filter Done.node (nodup_nodes r) fun d hd => mem_nodes.2 ⟨d, hd, rfl⟩
  lines := by
    rw [List.forall_mem_map]
    intro n _
    rw [groupOf, List.forall₂_map_right_iff, List.forall₂_same]
    exact fun d _ => tellsStep_doneLine d

theorem lines_flatMap {γ : Type} (l : List γ) (f : γ → List String) :
    Trouble.lines (l.flatMap f) = String.join (l.map fun x => Trouble.lines (f x)) := by
  induction l with
  | nil => rfl
  | cons x l ih =>
    rw [List.flatMap_cons, List.map_cons, String.join_cons, ← ih]
    simp [Trouble.lines]

theorem lists_doneLines (h : OneRole r) : Lists r (Trouble.lines (Failure.doneLines r)) := by
  by_cases hr : r = []
  · subst hr
    exact .none
  · have hlines : Failure.doneLines r = r.nodes.flatMap (Failure.doneOn r) := by
      cases r with
      | nil => exact absurd rfl hr
      | cons d r => rfl
    have hgroup : ∀ n ∈ r.nodes, Trouble.lines (Failure.doneOn r n) = (groupOf r n).text := by
      intro n hn
      rw [Failure.doneOn, h.ofHost hn, Group.text, groupOf, heading_eq]
      simp [Trouble.lines, String.append_assoc]
    have htext : Trouble.lines (Failure.doneLines r) =
        String.join ((r.nodes.map (groupOf r)).map Group.text) := by
      rw [hlines, lines_flatMap, List.map_congr_left hgroup, List.map_map]
      rfl
    rw [htext]
    exact .groups hr (grouped_groupOf r)

/-- The report of a failure ends in the steps of its record, behind what does not depend on them. -/
theorem exists_front (f : Failure) : ∃ front, ∀ r : Record, ({ f with done := r } : Failure).message =
    front ++ "Successful steps:\n" ++ Trouble.lines (Failure.doneLines r) := by
  refine ⟨Trouble.lines ([f.operation.text ++ " failed on " ++ f.node.role.text ++ " node " ++
    f.node.host ++ " at step " ++ f.step.text, "Config file: " ++ f.source, "PodNet: " ++ f.node.text] ++
    f.trouble.report), fun r => ?_⟩
  simp [Failure.message, Failure.reportLines, Trouble.lines, String.append_assoc]

theorem Separate.oneRole {top : Topology} (h : Separate top r) : OneRole r := fun d hd e he hhost =>
  congrArg Node.role (h.nodes _ (mem_nodes.2 ⟨d, hd, rfl⟩) _ (mem_nodes.2 ⟨e, he, rfl⟩) hhost)

end Report

/-- A failure lists every step that succeeded exactly once. With one role for each host, as every build and every
scrub over two hosts has it, there is one group for each node in the order of their first steps, and in it one
line for each step of the node in the order in which they were taken. -/
theorem reported_settled :
    (∀ f : Failure, ∃ front, ∀ r, OneRole r → ∃ listing, Lists r listing ∧
      ({ f with done := r } : Failure).message = front ++ "Successful steps:\n" ++ listing) ∧
    ∀ s : Site, s.topology.enabledHost ≠ s.topology.disabledHost →
      (∀ d t calls, OneRole (recordOf (s.build d t calls).1)) ∧
      ∀ t calls, OneRole (recordOf (s.scrub t calls).1) := by
  refine ⟨fun f => ?_, fun s hne => ?_⟩
  · obtain ⟨front, hfront⟩ := exists_front f
    exact ⟨front, fun r hr => ⟨_, lists_doneLines hr, hfront r⟩⟩
  · have hapart := keptApart_of_ne hne
    exact ⟨fun d t calls => (hapart.build s.executor s.directory d t calls).oneRole,
      fun t calls => (hapart.scrub s.executor s.directory t calls).oneRole⟩

/-- Steps on two nodes in turns, with outputs of several lines and of blanks only. -/
def turnsRecord : Record :=
  [⟨podTopology.disabled, .lookingUp, ⟨1, " \n", ""⟩⟩,
    ⟨podTopology.enabled, .writing, ⟨0, "", ""⟩⟩,
    ⟨podTopology.disabled, .applying, ⟨0, "\tfirst line\r\nsecond\n", ""⟩⟩,
    ⟨podTopology.enabled, .writing, ⟨0, "", ""⟩⟩]

def turnsText : String :=
  "  2a02:2078:3::10:0:3 (disabled):\n    - resolving-existing-table (exit 1)\n" ++
    "    - applying (exit 0) stdout: first line\n" ++
    "  2a02:2078:3::10:0:2 (enabled):\n    - writing-config (exit 0)\n    - writing-config (exit 0)\n"

def lostFailure (r : Record) : Failure :=
  ⟨.build, podTopology.enabled, .checking, .channel ⟨podTopology.enabledHost, none, "gone"⟩, "config.json", r⟩

def lostFront : String :=
  "build failed on enabled node 2a02:2078:3::10:0:2 at step validating-syntax\nConfig file: config.json\n" ++
    "PodNet: 2a02:2078:3::10:0:2 (enabled)\nChannel error: gone\n"

theorem oneRole_turnsRecord : OneRole turnsRecord := by decide

theorem message_lostFailure :
    (lostFailure []).message = lostFront ++ "Successful steps:\n" ++ "  (none)\n" ∧
      (lostFailure turnsRecord).message = lostFront ++ "Successful steps:\n" ++ turnsText := by
  decide +kernel

theorem reported_settled_turns : OneRole turnsRecord ∧ podTopology.enabledHost ≠ podTopology.disabledHost ∧
    (Lists turnsRecord turnsText ∧
      (lostFailure turnsRecord).message = lostFront ++ "Successful steps:\n" ++ turnsText) ∧
    ∀ d t calls, OneRole (recordOf (Site.build ⟨fun _ _ => .ok ⟨0, "", ""⟩, podTopology, "/tmp"⟩ d t calls).1) := by
  have hne : podTopology.enabledHost ≠ podTopology.disabledHost := by decide
  obtain ⟨hnothing, hturns⟩ := message_lostFailure
  obtain ⟨front, hfront⟩ := reported_settled.1 (lostFailure [])
  -- what stands in front is told by the failure without steps
  obtain ⟨listing, hlists, hmessage⟩ := hfront [] (by decide)
  obtain rfl : listing = "  (none)\n" := by
    cases hlists with
    | none => rfl
    | groups ne_nil => exact absurd rfl ne_nil
  obtain rfl : front = lostFront := by
    have heq := hmessage.symm.trans hnothing
    rwa [String.append_left_inj, String.append_left_inj] at heq
  obtain ⟨listing, hlists, hmessage⟩ := hfront turnsRecord oneRole_turnsRecord
  obtain rfl : listing = turnsText := (String.append_right_inj _).1 (hmessage.symm.trans hturns)
  exact ⟨oneRole_turnsRecord, hne, ⟨hlists, hturns⟩, (reported_settled.2 _ hne).1⟩

end Deploy
end TwinWall
