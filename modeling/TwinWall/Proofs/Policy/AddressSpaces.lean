import TwinWall.Proofs.Net.Blocks
import TwinWall.Proofs.Policy.Sound

/-! The address spaces of a checked mapping. Its private network is all in the private space. Its public
network is only not all in it: such a network may still have private addresses. -/
namespace TwinWall
namespace Policy
namespace Mapping

open Json Net Network

/-- What the check of a mapping has found of its two networks. -/
structure Spaces (m : Mapping) : Prop where
  inside : m.inside.isPrivate = true
  outside : m.outside.isPrivate = false

theorem spaces_of_check {v : Value} {m : Mapping} (h : check v = .ok m) : m.Spaces := by
  obtain ⟨fields, -, h⟩ := bind_eq_ok.1 h
  obtain ⟨parts, hparts, rfl⟩ := map_eq_ok.1 h
  obtain ⟨-, hparts⟩ := Checked.both_eq_ok.1 hparts
  obtain ⟨houtside, hparts⟩ := Checked.both_eq_ok.1 hparts
  obtain ⟨hinside, -⟩ := Checked.both_eq_ok.1 hparts
  constructor
  · obtain ⟨n, -, hn⟩ := bind_eq_ok.1 (Checked.one_eq_ok.1 hinside)
    split at hn
    · next hprivate =>
      cases hn
      exact hprivate
    · cases hn
  · obtain ⟨n, -, hn⟩ := bind_eq_ok.1 (Checked.one_eq_ok.1 houtside)
    split at hn
    · cases hn
    · next hpublic =>
      cases hn
      exact Bool.eq_false_iff.2 hpublic

/-- Every address of the private network is private, and some address of the public network is not. All of
them are not just if none of the private blocks begins in the public network. -/
theorem addressSpaces_of_check {v : Value} {m : Mapping} (h : check v = .ok m) :
    (∀ a, m.inside.contains a = true → InPrivateSpace a) ∧
      (∃ a, m.outside.contains a = true ∧ ¬ InPrivateSpace a) ∧
      ((∀ a, m.outside.contains a = true → ¬ InPrivateSpace a) ↔
        ∀ b ∈ privateBlocks, m.outside.contains b.address = false) := by
  have hspaces := spaces_of_check h
  refine ⟨fun a ha => ?_, ?_, clear_iff hspaces.outside⟩
  · obtain ⟨b, hb, hin⟩ := exists_block_of_isPrivate hspaces.inside
    exact ⟨b, hb, hin a ha⟩
  · have hends := hspaces.outside
    rw [isPrivate, Bool.and_eq_false_iff] at hends
    simp only [← Bool.not_eq_true, isPrivateAddress_iff] at hends
    rcases hends with hfirst | hlast
    · exact ⟨_, contains_first _, hfirst⟩
    · exact ⟨_, contains_last _, hlast⟩

/-- A whole public network behind a private one. -/
def routedValue : Value :=
  .record [("direction", .string "dnat"), ("public", .string "203.0.113.0/24"),
    ("private", .string "172.16.0.0/12"), ("iface", .string "ext0")]

def routedMapping : Mapping where
  direction := .destination
  outside := ofLen 0xCB007100 24
  inside := ofLen 0xAC100000 12
  interface := some "ext0"

theorem addressSpaces_of_check_routed : check routedValue = .ok routedMapping ∧
    (∀ a, routedMapping.inside.contains a = true → InPrivateSpace a) ∧
    ∀ a, routedMapping.outside.contains a = true → ¬ InPrivateSpace a := by
  have hcheck : check routedValue = .ok routedMapping := by rfl
  obtain ⟨hinside, -, hclear⟩ := addressSpaces_of_check hcheck
  exact ⟨hcheck, hinside, hclear.2 (by decide)⟩

/-- A public network that begins with a private block and goes on behind it. -/
def straddlingValue : Value :=
  .record [("direction", .string "snat"), ("public", .string "192.168.0.0/15"),
    ("private", .string "10.0.0.0/24")]

def straddlingMapping : Mapping where
  direction := .source
  outside := ofLen 0xC0A80000 15
  inside := ofLen 0x0A000000 24
  interface := none

/-- The mapping is accepted, and its public network has the address 192.168.0.1. -/
theorem private_address_outside : check straddlingValue = .ok straddlingMapping ∧
    straddlingMapping.outside.contains 0xC0A80001 = true ∧ InPrivateSpace 0xC0A80001 := by
  refine ⟨by rfl, by decide, ⟨ofLen 0xC0A80000 16, ?_, by decide⟩⟩
  simp [privateBlocks]

end Mapping
end Policy
end TwinWall
