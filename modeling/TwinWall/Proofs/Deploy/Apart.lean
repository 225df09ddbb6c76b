import TwinWall.Proofs.Deploy.History
import TwinWall.Proofs.Deploy.Surveyed
import TwinWall.Proofs.Topology.Pair

/-! The nodes of a topology file are never taken for each other. A file gives two nodes with different hosts,
so what an operation keeps under the host of one node is of that node alone. -/
namespace TwinWall
namespace Deploy

open Net Policy Remote

/-- The steps that succeeded, whether all did or not. -/
def recordOf : Except Failure Record → Record
  | .ok r => r
  | .error f => f.done

/-- What a record has under the host of a node is all that it has of this node. -/
structure Separate (top : Topology) (r : Record) : Prop where
  ofHost : ∀ n ∈ top.nodes, r.ofHost n.host = r.filter (·.node = n)
  nodes : ∀ n ∈ r.nodes, ∀ n' ∈ r.nodes, n.host = n'.host → n = n'

/-- No operation, whatever the nodes answer, merges what it has of one node with what it has of the other. -/
structure KeptApart (top : Topology) : Prop where
  build : ∀ e directory d t calls, Separate top (recordOf (Site.build ⟨e, top, directory⟩ d t calls).1)
  scrub : ∀ e directory t calls, Separate top (recordOf (Site.scrub ⟨e, top, directory⟩ t calls).1)
  read : ∀ e directory t calls, ∀ l ∈ (Site.read ⟨e, top, directory⟩ t calls).1.listings,
    (Site.read ⟨e, top, directory⟩ t calls).1.table? l.node.host = l.table?

/-- What the text of a topology file settles when it gives a topology. -/
structure Resolved (path text : String) (top : Topology) : Prop where
  origin : ∃ m subnet first a b, Topology.Origin path text top m subnet first a b ∧
    (top.enabledHost = a.text .v6 ↔ first = true)
  distinct : top.enabledHost ≠ top.disabledHost
  canonical : ∀ n ∈ top.nodes, ∃ x, Address.read? .v6 n.host.toList = some x ∧ x.text .v6 = n.host
  order : top.nodes = [⟨top.enabledHost, .enabled⟩, ⟨top.disabledHost, .disabled⟩]
  apart : KeptApart top

theorem separate_of_mem {top : Topology} (hne : top.enabledHost ≠ top.disabledHost) {r : Record}
    (h : ∀ d ∈ r, d.node ∈ top.nodes) : Separate top r := by
  refine ⟨fun n hn => List.filter_congr fun d hd => ?_, fun n hn n' hn' => ?_⟩
  · rw [decide_eq_decide]
    exact ⟨Topology.eq_of_host_eq hne (h d hd) hn, fun heq => congrArg Node.host heq⟩
  · have hmem : ∀ m ∈ r.nodes, m ∈ top.nodes := by
      intro m hm
      rw [Record.nodes, List.mem_eraseDups, List.mem_map] at hm
      obtain ⟨d, hd, rfl⟩ := hm
      exact h d hd
    exact Topology.eq_of_host_eq hne (hmem n hn) (hmem n' hn')

theorem node_mem_of_recounts {s : Site} {o : Operation} {p : Plan} {nodes : List Node} {calls : List Call}
    {x : Except Failure Record × List Call} (h : Recounts s o p nodes [] calls x) :
    ∀ d ∈ recordOf x.1, d.node ∈ nodes := by
  obtain ⟨result, after⟩ := x
  cases result with
  | ok r =>
    obtain ⟨done, rfl, hmem, -⟩ := h
    exact hmem
  | error f =>
    obtain ⟨done, hdone, hmem, -⟩ := h
    rw [recordOf, hdone]
    exact hmem

theorem keptApart_of_ne {top : Topology} (hne : top.enabledHost ≠ top.disabledHost) : KeptApart top where
  build e directory d t calls :=
    separate_of_mem hne (node_mem_of_recounts (runOnBoth_recounts ⟨e, top, directory⟩ .build _ calls).1)
  scrub e directory t calls :=
    separate_of_mem hne (node_mem_of_recounts (runOnBoth_recounts ⟨e, top, directory⟩ .scrub _ calls).1)
  read e directory t calls := by
    rw [read_eq]
    exact table?_of_mem hne _ _

theorem resolved_of_ofText {path text : String} {top : Topology} (h : Topology.ofText path text = .ok top) :
    Resolved path text top := by
  obtain ⟨m, subnet, first, a, b, horigin⟩ := Topology.exists_origin h
  have hne := Topology.enabledHost_ne_of_ofText h
  have heq := horigin.eq
  refine ⟨⟨m, subnet, first, a, b, horigin, ?_⟩, hne, ?_, rfl, keptApart_of_ne hne⟩
  · cases first with
    | true => simp [heq, Topology.ordered]
    | false =>
      have htext : b.text .v6 ≠ a.text .v6 := fun h => horigin.distinct (Address.text_injective h).symm
      simp [heq, Topology.ordered, htext]
  · cases first <;>
      simp [heq, Topology.ordered, Topology.nodes, Topology.enabled, Topology.disabled, Address.read?_text]

/-- Of a file that gives a topology all is settled: which nodes there are, which of them is enabled, and that
no operation takes one for the other. With both flags the other way round the same nodes have each other's
roles. -/
theorem nodes_settled :
    (∀ path text top, Topology.ofText path text = .ok top → Resolved path text top) ∧
    ∀ path text text', Topology.Opposed text text' →
      ∀ top, Topology.ofText path text = .ok top ↔ Topology.ofText path text' = .ok top.swapped :=
  ⟨fun _ _ _ => resolved_of_ofText, fun _ _ _ h _ => Topology.ofText_eq_ok_iff_of_opposed h⟩

def podTopology : Topology := ⟨"config.json", "2a02:2078:3::10:0:2", "2a02:2078:3::10:0:3"⟩

/-- The members in another order, with the other node enabled. -/
def turnedText : String :=
  "\x7b\"podnet_b_enabled\": true, \"podnet_a_enabled\": false, \"ipv6_subnet\": \"2a02:2078:3::/48\"\x7d"

def turnedMembers : Json.Members :=
  [("ipv6_subnet", .string "2a02:2078:3::/48"), ("podnet_a_enabled", .bool false),
    ("podnet_b_enabled", .bool true)]

theorem read_turnedText : Json.read turnedText = .ok (.object turnedMembers) := by cbv

theorem read_podText : Json.read Topology.podText = .ok Topology.podValue := by cbv

theorem opposed_pod : Topology.Opposed Topology.podText turnedText := by
  refine ⟨_, turnedMembers, read_podText, read_turnedText, fun key hkey => ?_, ?_⟩
  · obtain ⟨hfirst, hsecond⟩ : key ≠ "podnet_a_enabled" ∧ key ≠ "podnet_b_enabled" := by
      simpa [Topology.firstKey, Topology.secondKey] using hkey
    simp [turnedMembers, Json.Members.get?, hfirst, hsecond]
  · simp [turnedMembers, Json.Members.get?, Topology.firstKey, Topology.secondKey]

theorem nodes_settled_pod : Topology.ofText "config.json" Topology.podText = .ok podTopology ∧
    Topology.Opposed Topology.podText turnedText ∧ podTopology.enabledHost ≠ podTopology.disabledHost ∧
    Topology.ofText "config.json" turnedText = .ok podTopology.swapped := by
  have hpod : Topology.ofText "config.json" Topology.podText = .ok podTopology :=
    toOption_eq_some.1 (by decide +kernel)
  exact ⟨hpod, opposed_pod, (nodes_settled.1 _ _ _ hpod).distinct,
    (nodes_settled.2 _ _ _ opposed_pod _).1 hpod⟩

end Deploy
end TwinWall
