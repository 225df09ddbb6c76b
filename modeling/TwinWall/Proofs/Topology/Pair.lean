import TwinWall.Proofs.Topology.Sites

/-! The two nodes of a topology that a file gives. Their hosts are the texts of two addresses that differ in
the last group, so each of them tells which node is meant; and the flags settle nothing but their roles. -/
namespace TwinWall
namespace Topology

open Json Net Net.Address Policy

/-- The same two nodes in each other's roles. -/
def swapped (top : Topology) : Topology := ⟨top.source, top.disabledHost, top.enabledHost⟩

/-- What a topology comes from: an object with one flag that is true and one that is false, and with a subnet
whose text, with a suffix for each node, gives the addresses of two nodes. -/
structure Origin (path text : String) (top : Topology) (m : Members) (subnet : String) (first : Bool)
    (a b : Address .v6) : Prop where
  read : Json.read text = .ok (.object m)
  subnet_given : m.get? subnetKey = some (.string subnet)
  first_given : m.get? firstKey = some (.bool first)
  second_given : m.get? secondKey = some (.bool !first)
  first_read : Address.read? .v6 (stem subnet.toList ++ firstSuffix) = some a
  second_read : Address.read? .v6 (stem subnet.toList ++ secondSuffix) = some b
  distinct : a ≠ b
  eq : top = ordered path first a b

/-- Two texts of one object, but for both flags, which are each the other way round. -/
def Opposed (text text' : String) : Prop :=
  ∃ m m' : Members, Json.read text = .ok (.object m) ∧ Json.read text' = .ok (.object m') ∧
    (∀ key ∉ [firstKey, secondKey], m.get? key = m'.get? key) ∧
    ∀ key ∈ [firstKey, secondKey], ∃ b, m.get? key = some (.bool b) ∧ m'.get? key = some (.bool !b)

section Subnet

variable {subnet : String} {n : Network .v6} {h t : List Char} {hs ts : List Nat}

theorem continued_ne {s : List Char} (hc : Continues s h t hs ts) :
    continued hs ts 2 ≠ continued hs ts 3 := by
  intro heq
  have hsecond := toNat_continued hc (k := 3) (by decide)
  rw [← heq, toNat_continued hc (by decide)] at hsecond
  omega

/-- The address of a node is what its suffix behind the text of the subnet is read as. -/
theorem read?_suffix (hn : Network.read? .v6 subnet.toList = some n)
    (hc : Continues (stem subnet.toList) h t hs ts) {e : List Char} {k : Nat} (he : group? e = some k)
    (hcolon : ':' ∉ e) :
    Address.read? .v6 (stem subnet.toList ++ '1' :: '0' :: ':' :: '0' :: ':' :: e) =
      some (continued hs ts k) := by
  have hhost := (host?_eq_some_iff hn he hcolon _).2 ⟨h, t, hs, ts, hc, rfl⟩
  rw [host?, Option.map_eq_some_iff] at hhost
  obtain ⟨a, ha, htext⟩ := hhost
  rw [ha, text_injective htext]

end Subnet

section File

variable {path text : String} {top : Topology}

theorem ofText_eq_ok_iff : ofText path text = .ok top ↔
    ∃ whole, Json.read text = .ok whole ∧ ofValue path whole = .ok top := by
  rw [ofText]
  cases Json.read text with
  | error f => simp
  | ok whole => simp [mapError_eq_ok]

theorem exists_subnet_of_ofValue {whole : Value} (h : ofValue path whole = .ok top) :
    ∃ (m : Members) (v : Value), whole = .object m ∧ m.get? subnetKey = some v := by
  obtain ⟨p, hhosts, -⟩ := bind_eq_ok.1 h
  obtain ⟨w, hw, -⟩ := bind_eq_ok.1 hhosts
  cases hget : whole.get? subnetKey with
  | none => simp [required, hget] at hw
  | some v =>
    cases whole with
    | object m => exact ⟨m, v, rfl, hget⟩
    | _ => cases hget

theorem exists_origin (htop : ofText path text = .ok top) :
    ∃ m subnet first a b, Origin path text top m subnet first a b := by
  obtain ⟨whole, hread, hvalue⟩ := ofText_eq_ok_iff.1 htop
  obtain ⟨m, v, rfl, hv⟩ := exists_subnet_of_ofValue hvalue
  have hsubnet : (Value.object m).get? subnetKey = some v := hv
  obtain ⟨n, hs, ts, first, ⟨subnet, h, t, rfl, hn, hc⟩, hfirst, hsecond, rfl⟩ :=
    (ofValue_eq_ok hsubnet).1 hvalue
  exact ⟨m, subnet, first, _, _, hread, hv, hfirst, hsecond,
    read?_suffix hn hc (by decide : group? ['2'] = some 2) (by decide),
    read?_suffix hn hc (by decide : group? ['3'] = some 3) (by decide), continued_ne hc, rfl⟩

/-- A text that gives a topology gives it with the roles exchanged when both flags are the other way round. -/
theorem ofText_of_opposed {text' : String} (hopposed : Opposed text text')
    (htop : ofText path text = .ok top) : ofText path text' = .ok top.swapped := by
  obtain ⟨m, m', hread, hread', hsame, hflags⟩ := hopposed
  obtain ⟨whole, hwhole, hvalue⟩ := ofText_eq_ok_iff.1 htop
  obtain rfl : Value.object m = whole := Except.ok.inj (hread.symm.trans hwhole)
  obtain ⟨m₀, v, hm₀, hv⟩ := exists_subnet_of_ofValue hvalue
  cases hm₀
  have hsubnet : (Value.object m).get? subnetKey = some v := hv
  obtain ⟨n, hs, ts, first, hsited, hfirst, hsecond, rfl⟩ := (ofValue_eq_ok hsubnet).1 hvalue
  have hflip : ∀ key ∈ [firstKey, secondKey], ∀ b, m.get? key = some (.bool b) →
      m'.get? key = some (.bool !b) := by
    intro key hkey b hb
    obtain ⟨c, hc, hc'⟩ := hflags key hkey
    rw [hb] at hc
    cases hc
    exact hc'
  have hsubnet' : (Value.object m').get? subnetKey = some v := (hsame subnetKey (by decide)).symm.trans hv
  refine ofText_eq_ok_iff.2 ⟨_, hread', (ofValue_eq_ok hsubnet').2
    ⟨n, hs, ts, !first, hsited, hflip _ (by simp) _ hfirst, hflip _ (by simp) _ hsecond, ?_⟩⟩
  cases first <;> rfl

theorem Opposed.symm {text' : String} (h : Opposed text text') : Opposed text' text := by
  obtain ⟨m, m', hread, hread', hsame, hflags⟩ := h
  refine ⟨m', m, hread', hread, fun key hkey => (hsame key hkey).symm, fun key hkey => ?_⟩
  obtain ⟨b, hb, hb'⟩ := hflags key hkey
  exact ⟨!b, hb', by rw [Bool.not_not, hb]⟩

/-- Of two opposed texts both give a topology or none does. -/
theorem ofText_eq_ok_iff_of_opposed {text' : String} (h : Opposed text text') :
    ofText path text = .ok top ↔ ofText path text' = .ok top.swapped :=
  ⟨ofText_of_opposed h, fun htop => ofText_of_opposed h.symm htop⟩

theorem enabledHost_ne_of_ofText (htop : ofText path text = .ok top) :
    top.enabledHost ≠ top.disabledHost := by
  obtain ⟨m, subnet, first, a, b, horigin⟩ := exists_origin htop
  have hne : a.text .v6 ≠ b.text .v6 := fun h => horigin.distinct (text_injective h)
  rw [horigin.eq]
  cases first
  · exact hne.symm
  · exact hne

end File

/-- Nodes with different hosts are told apart by them. -/
theorem eq_of_host_eq {top : Topology} (hne : top.enabledHost ≠ top.disabledHost) {n n' : Node}
    (hn : n ∈ top.nodes) (hn' : n' ∈ top.nodes) (h : n.host = n'.host) : n = n' := by
  simp only [nodes, List.mem_cons, List.not_mem_nil, or_false] at hn hn'
  rcases hn with rfl | rfl <;> rcases hn' with rfl | rfl
  · rfl
  · exact absurd h hne
  · exact absurd h.symm hne
  · rfl

end Topology
end TwinWall
