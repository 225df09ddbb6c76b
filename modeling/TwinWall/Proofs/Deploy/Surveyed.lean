import TwinWall.Deploy.Listing
import TwinWall.Proofs.Deploy.Nodes
import TwinWall.Proofs.Document.Built

/-! Asking both nodes for a table. Whatever the first one answers, the second one is asked too; each answer
is kept as it is under the host that gave it, and the nodes are left as they were. -/
namespace TwinWall
namespace Deploy

open Policy Remote

/-- The command that lists the table of a target. -/
def tableCommand (t : Target) : String :=
  "ip netns exec " ++ t.namespaceName ++ " nft list table inet " ++ t.table

/-- The calls of a listing. -/
def askEnabled (top : Topology) (t : Target) : Call := ⟨top.enabled, tableCommand t⟩

def askDisabled (top : Topology) (t : Target) : Call := ⟨top.disabled, tableCommand t⟩

/-- A reply is the text of a table. -/
def GaveTable (r : Reply) (text : String) : Prop := ∃ err, r = .ok ⟨0, text, err⟩

theorem GaveTable.unique {r : Reply} {x y : String} (hx : GaveTable r x) (hy : GaveTable r y) : x = y := by
  obtain ⟨_, rfl⟩ := hx
  obtain ⟨_, hy⟩ := hy
  cases hy
  rfl

/-- What a survey tells of the replies of the enabled and the disabled node. -/
structure Surveyed (top : Topology) (t : Target) (a b : Reply) (survey : Survey) : Prop where
  messages : survey.messages t =
    [Listing.message t ⟨top.enabled, a⟩, Listing.message t ⟨top.disabled, b⟩]
  enabled : ∀ text, survey.table? top.enabledHost = some text ↔ GaveTable a text
  disabled : ∀ text, survey.table? top.disabledHost = some text ↔ GaveTable b text
  others : ∀ host ∉ [top.enabledHost, top.disabledHost], survey.table? host = none
  succeeded : survey.succeeded = true ↔ (∃ x, GaveTable a x) ∧ ∃ y, GaveTable b y
  differs : (survey.difference? top).isSome = true ↔ ∃ x y, GaveTable a x ∧ GaveTable b y ∧ x ≠ y
  difference : ∀ d, survey.difference? top = some d ↔
    ∃ x y, GaveTable a x ∧ GaveTable b y ∧ Diff.lineDiff? x y = some d

theorem command_listing (t : Target) (directory document : String) :
    Plan.command ⟨t, directory, document⟩ .listing = tableCommand t := by
  rw [← String.toList_inj]
  simp [Plan.command, Plan.nft, tableCommand]

theorem Listing.table?_eq_some {l : Listing} {text : String} :
    l.table? = some text ↔ GaveTable l.reply text := by
  obtain ⟨n, r⟩ := l
  cases r with
  | error f => simp [Listing.table?, GaveTable]
  | ok out =>
    obtain ⟨exit, stdout, stderr⟩ := out
    simp [Listing.table?, GaveTable, Output.succeeded, and_comm]

section Read

variable (s : Site) (t : Target) (calls : List Call)

/-- The listing of a node, with its reply after some calls. -/
theorem read_eq : s.read t calls =
    (⟨[⟨s.topology.enabled, s.executor calls (askEnabled s.topology t)⟩,
        ⟨s.topology.disabled,
          s.executor (calls ++ [askEnabled s.topology t]) (askDisabled s.topology t)⟩]⟩,
      calls ++ [askEnabled s.topology t, askDisabled s.topology t]) := by
  simp [Site.read, Site.list, Site.plan, command_listing, askEnabled, askDisabled]

end Read

/-- Hosts that differ do not share a place in a survey. -/
theorem table?_of_mem {top : Topology} (hne : top.enabledHost ≠ top.disabledHost) (a b : Reply) :
    ∀ l ∈ [(⟨top.enabled, a⟩ : Listing), ⟨top.disabled, b⟩],
      Survey.table? ⟨[⟨top.enabled, a⟩, ⟨top.disabled, b⟩]⟩ l.node.host = l.table? := by
  simp only [List.forall_mem_cons]
  refine ⟨?_, ?_, nofun⟩
  · simp [Survey.table?, Topology.enabled, Topology.disabled, hne.symm]
  · simp [Survey.table?, Topology.enabled, Topology.disabled, hne]

theorem surveyed_of_replies {top : Topology} (hne : top.enabledHost ≠ top.disabledHost) (t : Target)
    (a b : Reply) : Surveyed top t a b ⟨[⟨top.enabled, a⟩, ⟨top.disabled, b⟩]⟩ := by
  have henabled : ∀ text, Survey.table? ⟨[⟨top.enabled, a⟩, ⟨top.disabled, b⟩]⟩ top.enabledHost =
      some text ↔ GaveTable a text := by
    intro text
    rw [← Listing.table?_eq_some (l := ⟨top.enabled, a⟩), ← table?_of_mem hne a b _ (by simp)]
    rfl
  have hdisabled : ∀ text, Survey.table? ⟨[⟨top.enabled, a⟩, ⟨top.disabled, b⟩]⟩ top.disabledHost =
      some text ↔ GaveTable b text := by
    intro text
    rw [← Listing.table?_eq_some (l := ⟨top.disabled, b⟩), ← table?_of_mem hne a b _ (by simp)]
    rfl
  have hdifference : ∀ d, Survey.difference? ⟨[⟨top.enabled, a⟩, ⟨top.disabled, b⟩]⟩ top = some d ↔
      ∃ x y, GaveTable a x ∧ GaveTable b y ∧ Diff.lineDiff? x y = some d := by
    intro d
    simp only [Survey.difference?, Option.bind_eq_bind, Option.bind_eq_some_iff, henabled, hdisabled]
    constructor
    · rintro ⟨x, hx, y, hy, hd⟩
      exact ⟨x, y, hx, hy, hd⟩
    · rintro ⟨x, y, hx, hy, hd⟩
      exact ⟨x, hx, y, hy, hd⟩
  refine ⟨rfl, henabled, hdisabled, fun host hhost => ?_, ?_, ?_, hdifference⟩
  · have hhosts : top.enabledHost ≠ host ∧ top.disabledHost ≠ host := by
      simpa [eq_comm] using hhost
    simp [Survey.table?, Topology.enabled, Topology.disabled, hhosts]
  · simp [Survey.succeeded, Option.isSome_iff_exists, Listing.table?_eq_some]
  · simp only [Option.isSome_iff_exists, hdifference]
    constructor
    · rintro ⟨d, x, y, hx, hy, hd⟩
      refine ⟨x, y, hx, hy, fun heq => ?_⟩
      rw [Diff.lineDiff?_eq_none_iff.2 heq] at hd
      cases hd
    · rintro ⟨x, y, hx, hy, hne⟩
      obtain ⟨d, hd⟩ := Option.ne_none_iff_exists'.1 fun h => hne (Diff.lineDiff?_eq_none_iff.1 h)
      exact ⟨d, x, y, hx, hy, hd⟩

theorem surveyed_of_read (s : Site) (t : Target) (calls : List Call)
    (hne : s.topology.enabledHost ≠ s.topology.disabledHost) :
    Surveyed s.topology t (s.executor calls (askEnabled s.topology t))
      (s.executor (calls ++ [askEnabled s.topology t]) (askDisabled s.topology t)) (s.read t calls).1 := by
  rw [read_eq]
  exact surveyed_of_replies hne t _ _

/-- The listing of a table changes no node. -/
theorem step_listing {t : Target} (h : t.check = .ok ()) (faults : Faults) (calls : List Call) (w : World)
    (n : Node) : World.step faults calls w ⟨n, tableCommand t⟩ = w := by
  obtain ⟨hn, ht⟩ := Document.isName_of_targetCheck h
  have hpipeline : Shell.pipeline? (tableCommand t) = some (Plan.pipeline ⟨t, "", ""⟩ .listing) := by
    rw [← command_listing t "" ""]
    exact Plan.pipeline?_of_ne_writing (p := ⟨t, "", ""⟩) hn ht nofun
  have hrespond : ((w n.host).respond (tableCommand t)).1 = w n.host := by
    rw [NodeState.respond, hpipeline]
    rfl
  rw [World.step]
  split
  · rfl
  · rw [hrespond, Function.update_eq_self]

theorem after_read {t : Target} (h : t.check = .ok ()) (faults : Faults) (w : World) (top : Topology)
    (directory : String) : w.after faults ((w.site faults top directory).read t []).2 = w := by
  rw [read_eq]
  simp only [World.after, World.afterFrom, List.nil_append, askEnabled, askDisabled, step_listing h]

end Deploy
end TwinWall
