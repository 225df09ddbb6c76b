import TwinWall.Proofs.Decimal.Numeral
import TwinWall.Proofs.Net.HostBits
import TwinWall.Proofs.Net.NetworkText
import TwinWall.Proofs.Text.Trimmed

/-! What comes of parsing the text of a network. Both texts of a network without host bits give it back, and
where host bits are refused the text of the hint is accepted. -/
namespace TwinWall
namespace Net

open Text

namespace Address

theorem mem_of_octets? {s : List Char} {l : List Nat} (h : octets? s = some l) {c : Char} (hc : c ∈ s) :
    c = '.' ∨ c.isDigit = true := by
  refine (mem_of_splitOn hc).imp_right fun ⟨w, hw, hcw⟩ => ?_
  rw [octets?] at h
  split at h
  · rename_i hsplit
    rw [hsplit] at hw
    have hoctet := isSome_of_mapM h w hw
    rw [octet?] at hoctet
    split at hoctet
    · obtain ⟨n, hn⟩ := Option.isSome_iff_exists.1 hoctet
      exact (Decimal.digits?_eq_some_iff.1 (Option.filter_eq_some_iff.1 hn).1).isDigit c hcw
    · cases hoctet
  · cases h

/-- A colon is in no address of the first family. -/
theorem read?_v4_of_colon {s : List Char} (h : ':' ∈ s) : read? .v4 s = none := by
  rw [read?, Option.map_eq_none_iff, Option.eq_none_iff_forall_ne_some]
  intro l hl
  rcases mem_of_octets? hl h with hc | hc
  · cases hc
  · cases hc

theorem colon_mem_colonGroups {l : List Nat} (h : 2 ≤ l.length) : ':' ∈ (colonGroups l).toList := by
  match l, h with
  | g :: k :: l, _ =>
    rw [toList_colonGroups_cons]
    simp

/-- A colon is in every address of the second family. -/
theorem colon_mem_text (a : Address .v6) : ':' ∈ (a.text .v6).toList := by
  by_cases hm : isMapped (groups a) = true
  · simp [text, groupText, hm]
  · by_cases hrun : 2 ≤ (longestZeros (groups a)).2
    · simp [text, groupText, hm, hrun]
    · have hgroups := colon_mem_colonGroups (l := groups a) (by simp [groups])
      simpa [text, groupText, hm, hrun] using hgroups

end Address

namespace Network

variable {f : Family} (n : Network f)

theorem first_plain : n.plain.first = n.first := by
  have hsize : n.plain.size = n.size := rfl
  have haddress : n.plain.address = n.first := rfl
  rw [← BitVec.toNat_inj, toNat_first, hsize, haddress, toNat_first, Nat.mul_div_cancel _ n.size_pos]

theorem noHostBits_plain : n.plain.NoHostBits := by
  rw [← isPlain_iff, isPlain, first_plain]
  exact decide_eq_true rfl

theorem contains_plain : n.plain.contains n.address = true := by
  have hself := contains_iff.1 n.contains_self
  have hlast : n.plain.last.toNat = n.last.toNat := by
    rw [toNat_last, toNat_last, first_plain]
    rfl
  rw [contains_iff, first_plain, hlast]
  exact hself

end Network

namespace Subnet

theorem read?_v4_text (n : Network .v6) : Network.read? .v4 n.text.toList = none := by
  rw [Network.read?, n.splitOn_text]
  simp [Address.read?_v4_of_colon (Address.colon_mem_text n.address)]

theorem read?_v4_brief (n : Network .v6) : Network.read? .v4 n.brief.toList = none := by
  rw [Network.brief]
  split
  · rw [Network.read?, List.splitOn_eq_singleton n.slash_notMem]
    simp [Address.read?_v4_of_colon (Address.colon_mem_text n.address)]
  · exact read?_v4_text n

/-- Neither text of a network of the second family is one of the first. -/
theorem read?_text (n : Subnet) : read? n.text.toList = some n := by
  cases n with
  | v4 n => rw [read?, text, n.read?_text]
  | v6 n => rw [read?, text, read?_v4_text, n.read?_text, Option.map_some]

theorem read?_brief (n : Subnet) : read? n.brief.toList = some n := by
  cases n with
  | v4 n => rw [read?, brief, n.read?_brief]
  | v6 n => rw [read?, brief, read?_v4_brief, n.read?_brief, Option.map_some]

theorem brief_injective : Function.Injective brief := by
  intro m n h
  have hread := read?_brief m
  rw [h, read?_brief n] at hread
  exact (Option.some.inj hread).symm

theorem isPlain_text (n : Subnet) : IsPlain n.text := by
  cases n with
  | v4 n => exact n.isPlain_text
  | v6 n => exact n.isPlain_text

theorem parse_eq_ok_iff {raw : String} {n : Subnet} :
    parse raw = .ok n ↔ read? (trimmed raw.toList) = some n ∧ n.NoHostBits := by
  rw [parse]
  cases hread : read? (trimmed raw.toList) with
  | none => simp
  | some m =>
    by_cases hplain : m.isPlain = true
    · simp only [hplain, if_true, Except.ok.injEq, Option.some.injEq]
      refine ⟨?_, And.left⟩
      rintro rfl
      exact ⟨rfl, isPlain_iff.1 hplain⟩
    · simp only [hplain, Option.some.injEq]
      constructor
      · intro h
        cases h
      · rintro ⟨rfl, hn⟩
        exact absurd (isPlain_iff.2 hn) hplain

theorem parse_text {n : Subnet} (h : n.NoHostBits) : parse n.text = .ok n := by
  rw [parse_eq_ok_iff, n.isPlain_text.trimmed_toList]
  exact ⟨read?_text n, h⟩

theorem parse_brief {n : Subnet} (h : n.NoHostBits) : parse n.brief = .ok n := by
  rw [parse_eq_ok_iff, n.isPlain_brief.trimmed_toList]
  exact ⟨read?_brief n, h⟩

theorem parse_eq_error {raw : String} {e : NetworkError} (h : parse raw = .error e) :
    e = .unreadable raw ∧ read? (trimmed raw.toList) = none ∨
      ∃ n, read? (trimmed raw.toList) = some n ∧ ¬ n.NoHostBits ∧ e = .hostBits raw n.plain := by
  rw [parse] at h
  split at h
  · rename_i hread
    cases h
    exact Or.inl ⟨rfl, hread⟩
  · rename_i n hread
    split at h
    · cases h
    · rename_i hplain
      cases h
      exact Or.inr ⟨n, hread, fun hn => hplain (isPlain_iff.2 hn), rfl⟩

def len : Subnet → Nat
  | v4 n => n.len
  | v6 n => n.len

/-- Whether the address of the second network is in the first. -/
def holdsAddress : Subnet → Subnet → Bool
  | v4 m, v4 n => m.contains n.address
  | v6 m, v6 n => m.contains n.address
  | _, _ => false

/-- What a hint promises of the network that it is given for. -/
structure Hinted (n meant : Subnet) : Prop where
  accepted : parse meant.text = .ok meant
  family : meant.family = n.family
  len : meant.len = n.len
  address : meant.holdsAddress n = true

theorem hinted_plain (n : Subnet) : Hinted n n.plain := by
  cases n with
  | v4 n => exact ⟨parse_text n.noHostBits_plain, rfl, rfl, n.contains_plain⟩
  | v6 n => exact ⟨parse_text n.noHostBits_plain, rfl, rfl, n.contains_plain⟩

/-- Networks without host bits are just what is accepted, in either of their texts, and no other network has
the same brief text. A text with host bits is answered with the network that it lies in. -/
theorem parse_settled :
    (∀ n : Subnet, n.NoHostBits → parse n.brief = .ok n ∧ parse n.text = .ok n) ∧
    Function.Injective brief ∧
    (∀ raw e, parse raw = .error e → e = .unreadable raw ∧ read? (trimmed raw.toList) = none ∨
      ∃ n meant, read? (trimmed raw.toList) = some n ∧ ¬ n.NoHostBits ∧ e = .hostBits raw meant ∧
        e.message = "\"" ++ raw ++ "\" has host bits set, did you mean " ++ meant.text ++ "?" ∧
        Hinted n meant) ∧
    ∀ raw n, parse raw = .ok n → n.NoHostBits := by
  refine ⟨fun n h => ⟨parse_brief h, parse_text h⟩, brief_injective, fun raw e he => ?_,
    fun raw n h => (parse_eq_ok_iff.1 h).2⟩
  rcases parse_eq_error he with hnone | ⟨n, hread, hbits, rfl⟩
  · exact Or.inl hnone
  · exact Or.inr ⟨n, n.plain, hread, hbits, rfl, rfl, hinted_plain n⟩

/-- The address 10.0.0.5 as one of the second family. -/
def mappedHost : Subnet := v6 (.ofLen 0xffff0a000005 128)

/-- A network that ends within an octet. -/
def halvedNetwork : Subnet := v6 (.ofLen 0x20010db8800000000000000000000000 33)

theorem parse_settled_mapped :
    (parse "::ffff:10.0.0.5" = .ok mappedHost ∧ parse "::ffff:10.0.0.5/128" = .ok mappedHost) ∧
    parse " 2001:db8:ffff::1/33" = .error (.hostBits " 2001:db8:ffff::1/33" halvedNetwork) ∧
    halvedNetwork.text = "2001:db8:8000::/33" ∧ parse "2001:db8:8000::/33" = .ok halvedNetwork := by
  obtain ⟨htexts, -, herrors, -⟩ := parse_settled
  have hbrief : mappedHost.brief = "::ffff:10.0.0.5" := by decide +kernel
  have htext : mappedHost.text = "::ffff:10.0.0.5/128" := by decide +kernel
  have hmapped := htexts mappedHost (isPlain_iff.1 (by decide +kernel))
  rw [hbrief, htext] at hmapped
  have hhalved : halvedNetwork.text = "2001:db8:8000::/33" := by decide +kernel
  have hrefused : parse " 2001:db8:ffff::1/33" =
      .error (.hostBits " 2001:db8:ffff::1/33" halvedNetwork) := by rfl
  refine ⟨hmapped, hrefused, hhalved, ?_⟩
  rcases herrors _ _ hrefused with ⟨hne, -⟩ | ⟨n, meant, -, -, he, -, hhinted⟩
  · cases hne
  · cases he
    rw [← hhalved]
    exact hhinted.accepted

end Subnet
end Net
end TwinWall
