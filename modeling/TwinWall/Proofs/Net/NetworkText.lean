import TwinWall.Net.Network
import TwinWall.Proofs.Net.AddressText

/-! The text of a network, brief or not, reads as that network again, and is one plain word. -/
namespace TwinWall
namespace Net

open Text

namespace Address

theorem mem_colonGroups {l : List Nat} {c : Char} (h : c ∈ (colonGroups l).toList) :
    c = ':' ∨ isHex c = true := by
  rcases mem_intercalate h with h | ⟨w, hw, h⟩
  · exact Or.inl (by simpa using h)
  · obtain ⟨n, -, rfl⟩ := List.mem_map.1 hw
    exact Or.inr (isHex_of_mem_hexText h)

/-- What the text of an address is written with. -/
def isLetter (c : Char) : Bool := c = '.' || c = ':' || isHex c

theorem isHex_of_isDigit {c : Char} (h : c.isDigit = true) : isHex c = true := by
  simp [isHex, hexValue?, h]

theorem isLetter_of_mem_dotted {l : List Nat} {c : Char} (h : c ∈ (dotted l).toList) :
    isLetter c = true := by
  rcases mem_dotted h with h | h
  · simp [isLetter, h]
  · simp [isLetter, isHex_of_isDigit h]

theorem isLetter_of_mem_colonGroups {l : List Nat} {c : Char} (h : c ∈ (colonGroups l).toList) :
    isLetter c = true := by
  rcases mem_colonGroups h with h | h <;> simp [isLetter, h]

theorem isLetter_of_mem_text {f : Family} {a : Address f} {c : Char} (h : c ∈ (a.text f).toList) :
    isLetter c = true := by
  cases f with
  | v4 => exact isLetter_of_mem_dotted h
  | v6 =>
    by_cases hm : isMapped (groups a) = true
    · rw [text, groupText, if_pos hm, String.toList_append] at h
      rcases List.mem_append.1 h with h | h
      · have hmark : "::ffff:".toList.all isLetter = true := by decide +kernel
        exact List.all_eq_true.1 hmark c h
      · exact isLetter_of_mem_dotted h
    · rw [text, groupText, if_neg hm] at h
      generalize longestZeros (groups a) = z at h
      by_cases hrun : 2 ≤ z.2
      · simp only [if_pos hrun, String.toList_append, List.mem_append] at h
        rcases h with (h | h) | h
        · exact isLetter_of_mem_colonGroups h
        · have hcolon : c = ':' := by simpa using h
          simp [isLetter, hcolon]
        · exact isLetter_of_mem_colonGroups h
      · simp only [if_neg hrun] at h
        exact isLetter_of_mem_colonGroups h

theorem text_ne_nil {f : Family} (a : Address f) : (a.text f).toList ≠ [] := by
  intro h
  have hread := read?_text f a
  rw [h] at hread
  cases f with
  | v4 => exact absurd hread (by simp [read?, octets?])
  | v6 => exact absurd hread (by simp [read?, allGroups?, splitDouble, groups?])

theorem isPlain_of_isLetter {c : Char} (h : isLetter c = true) : isPlain c = true := by
  simp only [isLetter, Bool.or_eq_true, decide_eq_true_eq] at h
  rcases h with (rfl | rfl) | h
  · decide
  · decide
  · exact (isPlain_of_isHex h).1

theorem notMem_text {f : Family} {a : Address f} {c : Char} (hc : isLetter c = false) :
    c ∉ (a.text f).toList := by
  intro h
  rw [isLetter_of_mem_text h] at hc
  cases hc

theorem isPlain_text {f : Family} (a : Address f) : IsPlain (a.text f) :=
  ⟨text_ne_nil a, fun _ h => isPlain_of_isLetter (isLetter_of_mem_text h)⟩

end Address

theorem isPlain_of_isDigit {c : Char} (h : c.isDigit = true) : isPlain c = true := by
  simp [isPlain, Char.isAlphanum, h]

theorem isPlain_repr (n : Nat) : IsPlain n.repr :=
  ⟨Address.repr_ne_nil n, fun _ h => isPlain_of_isDigit (Address.isDigit_of_mem_repr h)⟩

theorem unsigned?_repr (n : Nat) : Decimal.unsigned? n.repr.toList = some n := by
  have hplus : '+' ∉ n.repr.toList := Address.notMem_repr (by decide)
  have hread := Decimal.digits?_repr n
  generalize n.repr.toList = s at *
  rw [Decimal.unsigned?.eq_def]
  split
  · rename_i r
    exact absurd (List.mem_cons_self ..) hplus
  · exact hread

namespace Network

variable {f : Family} (n : Network f)

theorem make?_self : make? f n.address n.len = some n := dif_pos n.len_le

theorem len?_repr (k : Nat) : len? f k.repr.toList = some k := by
  cases f with
  | v4 =>
    have hdot : '.' ∉ k.repr.toList := Address.notMem_repr (by decide)
    have hnone : Address.octets? k.repr.toList = none := by
      rw [Address.octets?, List.splitOn_eq_singleton hdot]
    rw [len?, hnone]
    exact unsigned?_repr k
  | v6 => exact unsigned?_repr k

theorem slash_notMem : '/' ∉ (n.address.text f).toList :=
  Address.notMem_text (by decide)

theorem splitOn_text : n.text.toList.splitOn '/' = [(n.address.text f).toList, n.len.repr.toList] := by
  have hlen : '/' ∉ n.len.repr.toList := Address.notMem_repr (by decide)
  rw [splitOn_eq_iff (by simp)]
  refine ⟨by simp [text], ?_⟩
  simp only [List.forall_mem_cons]
  exact ⟨n.slash_notMem, hlen, List.forall_mem_nil _⟩

theorem read?_text : read? f n.text.toList = some n := by
  rw [read?, n.splitOn_text]
  simp only [Address.read?_text, len?_repr, Option.bind_eq_bind, Option.bind_some]
  exact n.make?_self

theorem read?_brief : read? f n.brief.toList = some n := by
  by_cases h : n.len = f.width
  · have hself := n.make?_self
    rw [brief, if_pos h, read?, List.splitOn_eq_singleton n.slash_notMem]
    simpa [Address.read?_text, h] using hself
  · rw [brief, if_neg h]
    exact n.read?_text

theorem isPlain_text : IsPlain n.text := by
  have haddr := Address.isPlain_text n.address
  refine ⟨by simp [text], fun c h => ?_⟩
  simp only [text, String.toList_append, List.mem_append] at h
  rcases h with (h | h) | h
  · exact haddr.plain c h
  · have hslash : c = '/' := by simpa using h
    rw [hslash]
    decide
  · exact (isPlain_repr n.len).plain c h

theorem isPlain_brief : IsPlain n.brief := by
  by_cases h : n.len = f.width
  · rw [brief, if_pos h]
    exact Address.isPlain_text n.address
  · rw [brief, if_neg h]
    exact n.isPlain_text

end Network

theorem Subnet.isPlain_brief (n : Subnet) : IsPlain n.brief := by
  cases n with
  | v4 n => exact n.isPlain_brief
  | v6 n => exact n.isPlain_brief

end Net
end TwinWall
