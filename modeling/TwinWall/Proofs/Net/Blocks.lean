import Mathlib.Algebra.Group.Nat.Defs
import TwinWall.Net.Network

/-! A network is the range of addresses between its two ends, and two networks with an address in common
lie in each other. The private space is three networks; a network lies in it just if both its ends do. -/
namespace TwinWall
namespace Net
namespace Network

variable {f : Family}

theorem size_eq (n : Network f) : n.size = 2 ^ (f.width - n.len) := by
  rw [size, Nat.one_shiftLeft]

theorem two_pow_width (n : Network f) : 2 ^ f.width = 2 ^ n.len * n.size := by
  rw [size_eq, ← Nat.pow_add, Nat.add_sub_cancel' n.len_le]

/-- All addresses behind the shared part of an address are addresses of the family. -/
theorem block_le (n : Network f) (a : Address f) : (a.toNat / n.size + 1) * n.size ≤ 2 ^ f.width := by
  have hlt : a.toNat / n.size < 2 ^ n.len := by
    rw [Nat.div_lt_iff_lt_mul n.size_pos, ← two_pow_width]
    exact a.isLt
  rw [two_pow_width n]
  exact Nat.mul_le_mul_right _ hlt

theorem toNat_first (n : Network f) : n.first.toNat = n.address.toNat / n.size * n.size := by
  have hblock := n.block_le n.address
  have hpos := n.size_pos
  rw [Nat.add_one_mul] at hblock
  rw [first, BitVec.toNat_ofNat, Nat.mod_eq_of_lt]
  omega

theorem toNat_last (n : Network f) : n.last.toNat = n.first.toNat + (n.size - 1) := by
  have hblock := n.block_le n.address
  have hpos := n.size_pos
  rw [Nat.add_one_mul] at hblock
  rw [toNat_first, last, BitVec.toNat_ofNat, Nat.mod_eq_of_lt]
  omega

theorem contains_iff {n : Network f} {a : Address f} :
    n.contains a = true ↔ n.first.toNat ≤ a.toNat ∧ a.toNat ≤ n.last.toNat := by
  have hpos := n.size_pos
  rw [contains, decide_eq_true_eq, Nat.div_eq_iff hpos, toNat_last, toNat_first]
  constructor
  · rintro ⟨hlow, hhigh⟩
    omega
  · rintro ⟨hlow, hhigh⟩
    omega

theorem first_le_last (n : Network f) : n.first.toNat ≤ n.last.toNat := by
  rw [toNat_last]
  exact Nat.le_add_right _ _

theorem contains_first (n : Network f) : n.contains n.first = true :=
  contains_iff.2 ⟨Nat.le_refl _, n.first_le_last⟩

theorem contains_last (n : Network f) : n.contains n.last = true :=
  contains_iff.2 ⟨n.first_le_last, Nat.le_refl _⟩

/-- Of two networks with an address in common the one with the shorter shared part has all addresses of
the other. -/
theorem contains_of_len_le {m n : Network f} (hlen : m.len ≤ n.len) {a b : Address f}
    (hm : m.contains a = true) (hn : n.contains a = true) (hb : n.contains b = true) :
    m.contains b = true := by
  have hsize : m.size = n.size * 2 ^ (n.len - m.len) := by
    have hle := n.len_le
    rw [size_eq, size_eq, ← Nat.pow_add]
    congr 1
    omega
  simp only [contains, decide_eq_true_eq] at hm hn hb ⊢
  have hsame : b.toNat / n.size = a.toNat / n.size := hb.trans hn.symm
  calc b.toNat / m.size = b.toNat / n.size / 2 ^ (n.len - m.len) := by
        rw [hsize, Nat.div_div_eq_div_mul]
    _ = a.toNat / n.size / 2 ^ (n.len - m.len) := by rw [hsame]
    _ = a.toNat / m.size := by rw [hsize, Nat.div_div_eq_div_mul]
    _ = m.address.toNat / m.size := hm

/-- The network of an address and a length; a length that is too large is cut to that of an address. -/
def ofLen (a : Address f) (len : Nat) : Network f := ⟨a, min len f.width, Nat.min_le_right _ _⟩

/-- The networks 10.0.0.0/8, 172.16.0.0/12 and 192.168.0.0/16. -/
def privateBlocks : List (Network .v4) :=
  [ofLen 0x0A000000 8, ofLen 0xAC100000 12, ofLen 0xC0A80000 16]

example : privateBlocks.map text = ["10.0.0.0/8", "172.16.0.0/12", "192.168.0.0/16"] := by
  decide +kernel

def InPrivateSpace (a : Address .v4) : Prop := ∃ b ∈ privateBlocks, b.contains a = true

theorem isPrivateAddress_iff {a : Address .v4} : isPrivateAddress a = true ↔ InPrivateSpace a := by
  simp [isPrivateAddress, InPrivateSpace, privateBlocks, ofLen, contains, size, Family.width_v4,
    Nat.shiftRight_eq_div_pow, or_assoc]

/-- The ends of a network are close to each other, or its first address is a multiple of a large number. -/
theorem ends_close (n : Network .v4) :
    2 ^ 29 ∣ n.first.toNat ∨ n.last.toNat < n.first.toNat + 2 ^ 28 := by
  by_cases hlen : n.len ≤ 3
  · left
    have hsize : 2 ^ 29 ∣ n.size := by
      rw [size_eq]
      exact Nat.pow_dvd_pow 2 (by simp only [Family.width_v4]; omega)
    rw [toNat_first]
    exact Nat.dvd_mul_left_of_dvd hsize _
  · right
    have hsize : n.size ≤ 2 ^ 28 := by
      rw [size_eq]
      exact Nat.pow_le_pow_right (by decide) (by simp only [Family.width_v4]; omega)
    have hpos := n.size_pos
    rw [toNat_last]
    omega

theorem ends_of_mem {b : Network .v4} (hb : b ∈ privateBlocks) :
    b.first.toNat = 0x0A000000 ∧ b.last.toNat = 0x0AFFFFFF ∨
      b.first.toNat = 0xAC100000 ∧ b.last.toNat = 0xAC1FFFFF ∨
      b.first.toNat = 0xC0A80000 ∧ b.last.toNat = 0xC0A8FFFF := by
  simp only [privateBlocks, List.mem_cons, List.not_mem_nil, or_false] at hb
  rcases hb with rfl | rfl | rfl <;> decide

/-- Two private ends of a network are in the same block, which then has all that is between them. -/
theorem exists_block_of_isPrivate {n : Network .v4} (h : n.isPrivate = true) :
    ∃ b ∈ privateBlocks, ∀ a, n.contains a = true → b.contains a = true := by
  rw [isPrivate, Bool.and_eq_true, isPrivateAddress_iff, isPrivateAddress_iff] at h
  obtain ⟨⟨b, hb, hfirst⟩, ⟨c, hc, hlast⟩⟩ := h
  have hfirst := contains_iff.1 hfirst
  have hwithin : n.last.toNat ≤ b.last.toNat := by
    have hlast := contains_iff.1 hlast
    have hbends := ends_of_mem hb
    have hcends := ends_of_mem hc
    have hclose := n.ends_close
    omega
  refine ⟨b, hb, fun a ha => ?_⟩
  have ha := contains_iff.1 ha
  exact contains_iff.2 ⟨Nat.le_trans hfirst.1 ha.1, Nat.le_trans ha.2 hwithin⟩

theorem isPrivate_of_contains {n b : Network .v4} (hb : b ∈ privateBlocks)
    (h : ∀ a, n.contains a = true → b.contains a = true) : n.isPrivate = true := by
  rw [isPrivate, Bool.and_eq_true, isPrivateAddress_iff, isPrivateAddress_iff]
  exact ⟨⟨b, hb, h _ n.contains_first⟩, ⟨b, hb, h _ n.contains_last⟩⟩

/-- Private ends leave no public address between them: a network is private just if all its addresses are. -/
theorem isPrivate_iff_forall (n : Network .v4) :
    (n.isPrivate = true ↔ ∀ a, n.contains a = true → InPrivateSpace a) ∧
      (InPrivateSpace n.first → InPrivateSpace n.last →
        ∀ a : Address .v4, n.first ≤ a → a ≤ n.last → InPrivateSpace a) := by
  have hall : n.isPrivate = true → ∀ a, n.contains a = true → InPrivateSpace a := by
    intro h a ha
    obtain ⟨b, hb, hin⟩ := exists_block_of_isPrivate h
    exact ⟨b, hb, hin a ha⟩
  have hends : InPrivateSpace n.first ∧ InPrivateSpace n.last ↔ n.isPrivate = true := by
    rw [isPrivate, Bool.and_eq_true, isPrivateAddress_iff, isPrivateAddress_iff]
  refine ⟨⟨hall, fun h => ?_⟩, fun hfirst hlast a hlow hhigh => ?_⟩
  · exact hends.1 ⟨h _ n.contains_first, h _ n.contains_last⟩
  · refine hall (hends.1 ⟨hfirst, hlast⟩) a (contains_iff.2 ⟨?_, ?_⟩)
    · exact BitVec.le_def.1 hlow
    · exact BitVec.le_def.1 hhigh

/-- A network with host bits in the second block is private, and one twice as large is not. -/
theorem isPrivate_iff_forall_second :
    (∀ a, (ofLen (f := .v4) 0xAC14A80F 12).contains a = true → InPrivateSpace a) ∧
      ¬ ∀ a, (ofLen (f := .v4) 0xAC14A80F 11).contains a = true → InPrivateSpace a := by
  obtain ⟨hsmall, -⟩ := isPrivate_iff_forall (ofLen 0xAC14A80F 12)
  obtain ⟨hlarge, -⟩ := isPrivate_iff_forall (ofLen 0xAC14A80F 11)
  exact ⟨hsmall.1 (by decide), fun h => absurd (hlarge.2 h) (by decide)⟩

/-- A network that is not private keeps clear of the private space just if no block begins in it. -/
theorem clear_iff {n : Network .v4} (h : n.isPrivate = false) :
    (∀ a, n.contains a = true → ¬ InPrivateSpace a) ↔
      ∀ b ∈ privateBlocks, n.contains b.address = false := by
  constructor
  · intro hclear b hb
    rw [← Bool.not_eq_true]
    exact fun hmem => hclear b.address hmem ⟨b, hb, b.contains_self⟩
  · rintro hnone a ha ⟨b, hb, hba⟩
    by_cases hlen : n.len ≤ b.len
    · have hmem := contains_of_len_le hlen ha hba b.contains_self
      rw [hnone b hb] at hmem
      cases hmem
    · have hin : ∀ a, n.contains a = true → b.contains a = true := fun c hc =>
        contains_of_len_le (Nat.le_of_not_le hlen) hba ha hc
      rw [isPrivate_of_contains hb hin] at h
      cases h

end Network
end Net
end TwinWall
