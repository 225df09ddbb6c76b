import TwinWall.Proofs.Net.NetworkText
import TwinWall.Proofs.Policy.Sound
import TwinWall.Proofs.Text.Trimmed

/-! The text of a port or of a range of ports reads as the same entry, and is one plain word. -/
namespace TwinWall
namespace Policy

open Net Text

theorem portNumber_repr {n : Nat} (hpos : 0 < n) (hle : n ≤ maxPort) :
    portNumber n.repr.toList = .ok n := by
  rw [portNumber_eq_ok, (isPlain_repr n).trimmed_toList]
  exact ⟨unsigned?_repr n, hpos, hle⟩

namespace PortEntry

theorem parse_text {e : PortEntry} (h : e.Sound) : parse e.text = .ok e := by
  have hdash : ∀ n : Nat, '-' ∉ n.repr.toList := fun n => Address.notMem_repr (by decide)
  cases e with
  | single p => exact parse_eq_single.2 ⟨hdash p, portNumber_repr h.1 h.2⟩
  | range a b =>
    obtain ⟨hpos, hab, hle⟩ := h
    have hfirst := portNumber_repr hpos (Nat.le_trans hab hle)
    have hlast := portNumber_repr (Nat.lt_of_lt_of_le hpos hab) hle
    exact parse_eq_range.2 ⟨_, _, by simp [text], hdash a, hdash b, hfirst, hlast, hab⟩

theorem isPlain_text (e : PortEntry) : IsPlain e.text := by
  cases e with
  | single p => exact isPlain_repr p
  | range a b =>
    refine ⟨by simp [text], fun c hc => ?_⟩
    simp only [text, String.toList_append, List.mem_append] at hc
    rcases hc with (hc | hc) | hc
    · exact (isPlain_repr a).plain c hc
    · have hdash : c = '-' := by simpa using hc
      rw [hdash]
      decide
    · exact (isPlain_repr b).plain c hc

end PortEntry
end Policy
end TwinWall
