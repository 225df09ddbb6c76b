import Mathlib.Data.Nat.Bitwise
import TwinWall.Proofs.Net.Blocks

/-! The bits of a network behind its shared part. A network that was read has none of them set. -/
namespace TwinWall
namespace Net

variable {f : Family}

def Network.NoHostBits (n : Network f) : Prop := ∀ i < f.width - n.len, n.address.getLsbD i = false

def Subnet.NoHostBits : Subnet → Prop
  | v4 n => n.NoHostBits
  | v6 n => n.NoHostBits

theorem mod_two_pow_eq_zero_iff {a k : Nat} : a % 2 ^ k = 0 ↔ ∀ i < k, a.testBit i = false := by
  constructor
  · intro h i hi
    have hbit := Nat.testBit_mod_two_pow a k i
    rw [h, Nat.zero_testBit, decide_eq_true hi, Bool.true_and] at hbit
    exact hbit.symm
  · intro h
    refine Nat.eq_of_testBit_eq fun i => ?_
    rw [Nat.testBit_mod_two_pow, Nat.zero_testBit]
    by_cases hi : i < k
    · simp [h i hi]
    · simp [hi]

theorem Network.isPlain_iff {n : Network f} : n.isPlain = true ↔ n.NoHostBits := by
  have hmod := Nat.div_add_mod' n.address.toNat n.size
  rw [isPlain, decide_eq_true_eq, ← BitVec.toNat_inj, toNat_first, NoHostBits]
  simp only [BitVec.getLsbD]
  rw [← mod_two_pow_eq_zero_iff, ← size_eq]
  omega

theorem Subnet.isPlain_iff {n : Subnet} : n.isPlain = true ↔ n.NoHostBits := by
  cases n <;> exact Network.isPlain_iff

theorem Subnet.noHostBits_of_parse {raw : String} {n : Subnet} (h : parse raw = .ok n) :
    n.NoHostBits := by
  rw [parse] at h
  split at h
  · cases h
  · split at h
    · rename_i hplain
      cases h
      exact isPlain_iff.1 hplain
    · cases h

end Net
end TwinWall
