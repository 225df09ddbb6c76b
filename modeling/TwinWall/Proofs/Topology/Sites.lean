import Mathlib
import TwinWall.Proofs.Net.Blocks
import TwinWall.Proofs.Net.Continued
import TwinWall.Proofs.Policy.Sound
import TwinWall.Topology.Resolve

/-! Where the nodes are that a topology file gives. A node is to be at a fixed place of the subnet, but its
address is put together as text: what stands behind the double colon of the subnet moves to other groups, and
neither host bits nor the length of the subnet count. -/
namespace TwinWall
namespace Topology

open Json Net Net.Address Policy

/-- The address at a place of a network: the first 80 bits are the network's, the last 48 are the place's. -/
structure InPlace (n : Network .v6) (k : Nat) (a : Address .v6) : Prop where
  inside : n.contains a = true
  high : a.toNat / 2 ^ 48 = n.first.toNat / 2 ^ 48
  low : a.toNat % 2 ^ 48 = 0x001000000000 + k

/-- The address whose text is that of a subnet with the groups of a node behind it. -/
def continued (hs ts : List Nat) (k : Nat) : Address .v6 := ofGroups (filled hs (extended ts k))

theorem Continues.unique {s h t h' t' : List Char} {hs ts hs' ts' : List Nat}
    (hc : Continues s h t hs ts) (hc' : Continues s h' t' hs' ts') : hs = hs' ∧ ts = ts' := by
  have hsplit := hc.split
  rw [hc'.split] at hsplit
  cases hsplit
  exact ⟨Option.some.inj (hc.front.symm.trans hc'.front), Option.some.inj (hc.back.symm.trans hc'.back)⟩

theorem head?_splitOn (s : List Char) : (s.splitOn '/').head? = some (stem s) := by
  induction s with
  | nil => simp [stem]
  | cons c s ih =>
    rw [List.splitOn_cons_eq_if_modifyHead]
    by_cases hc : c = '/'
    · simp [hc, stem]
    · obtain ⟨a, l, hs⟩ := List.exists_cons_of_ne_nil (List.splitOn_ne_nil '/' s)
      rw [hs] at ih ⊢
      obtain rfl : a = stem s := by simpa using ih
      simp [hc, stem]

/-- The text of a network begins with that of its address. -/
theorem read?_stem {s : List Char} {n : Network .v6} (h : Network.read? .v6 s = some n) :
    Address.read? .v6 (stem s) = some n.address := by
  have hhead := head?_splitOn s
  have hmake : ∀ {a : Address .v6} {k : Nat}, Network.make? .v6 a k = some n → n.address = a := by
    intro a k hn
    rw [Network.make?] at hn
    split at hn
    · cases hn
      rfl
    · cases hn
  rw [Network.read?] at h
  split at h
  · rename_i a hsplit
    obtain rfl : a = stem s := by simpa [hsplit] using hhead
    obtain ⟨b, hb, hn⟩ := Option.bind_eq_some_iff.1 h
    rw [hb, hmake hn]
  · rename_i a l hsplit
    obtain rfl : a = stem s := by simpa [hsplit] using hhead
    obtain ⟨b, hb, h⟩ := Option.bind_eq_some_iff.1 h
    obtain ⟨k, -, hn⟩ := Option.bind_eq_some_iff.1 h
    rw [hb, hmake hn]
  · cases h

section Place

variable {s h t : List Char} {hs ts : List Nat} (hc : Continues s h t hs ts)

include hc

theorem getLastD_lt : ts.getLastD 0 < 256 := by
  calc ts.getLastD 0 < 16 ^ (lastPart t).length := (groups?_bounds hc.back).2
    _ ≤ 16 ^ 2 := Nat.pow_le_pow_right (by decide) hc.short

theorem toNat_continued {k : Nat} (hk : k < 65536) :
    (continued hs ts k).toNat = joined 65536 hs * 65536 ^ (4 - hs.length) * 2 ^ 64 +
      (joined 65536 ts.dropLast * 2 ^ 48 + (256 * ts.getLastD 0 + 16) * 2 ^ 32 + k) := by
  have hroom := hc.room
  have hlast := getLastD_lt hc
  have hts : ∀ g ∈ extended ts k, g < 65536 := by
    simp only [extended, List.mem_append, List.mem_cons, List.not_mem_nil, or_false]
    rintro g (hg | rfl | rfl | rfl)
    · exact (groups?_bounds hc.back).1 g (List.dropLast_subset ts hg)
    · omega
    · decide
    · exact hk
  rw [continued, toNat_ofGroups_filled (by omega) (by rw [length_extended]; omega)
    (groups?_bounds hc.front).1 hts, joined_extended]

theorem toNat_of_read? {a : Address .v6} (ha : Address.read? .v6 s = some a) :
    a.toNat = joined 65536 hs * 65536 ^ (4 - hs.length) * 2 ^ 64 +
      (joined 65536 ts.dropLast * 2 ^ 16 + ts.getLastD 0) := by
  have hroom := hc.room
  have hfew : hs.length + ts.length ≤ 7 := by omega
  have hgroups : allGroups? s = some (filled hs ts) := by
    simp [allGroups?, hc.split, hc.front, groups?_true_of_false hc.back, hfew, filled]
  rw [Address.read?, hgroups] at ha
  cases ha
  have hvalue := toNat_ofGroups_filled (by omega) (by omega) (groups?_bounds hc.front).1
    (groups?_bounds hc.back).1
  rwa [joined_dropLast ts] at hvalue

end Place

/-- For numbers: `m` and `t` are what is in front of the last group `g` of the subnet, and `S` is the size of
the network that its address `A` lies in. -/
theorem site_iff {m t g k S A N X : Nat} (hS : 0 < S) (hg : g < 256) (hk : k < 2 ^ 32)
    (hA : A = m * 2 ^ 64 + (t * 2 ^ 16 + g)) (hN : N = A / S * S)
    (hX : X = m * 2 ^ 64 + (t * 2 ^ 48 + (256 * g + 16) * 2 ^ 32 + k)) :
    (X / S = A / S ∧ X / 2 ^ 48 = N / 2 ^ 48 ∧ X % 2 ^ 48 = 0x001000000000 + k) ↔
      A = N ∧ 2 ^ 36 + k < S ∧ t * 2 ^ 16 + g = 0 := by
  rw [Nat.div_eq_iff hS, ← hN]
  have hle : N ≤ A := hN ▸ Nat.div_mul_le_self A S
  -- the first 80 bits stay only without `t`, as it moves up and the network begins no later than `A`
  omega

theorem two_pow_lt_size_iff {n : Network .v6} {k : Nat} (hk : k < 2 ^ 36) :
    2 ^ 36 + k < n.size ↔ n.len ≤ 91 := by
  have hlen : n.len ≤ 128 := n.len_le
  rw [Network.size_eq]
  constructor
  · intro h
    by_contra hlong
    have hsmall : 2 ^ (Family.width .v6 - n.len) ≤ 2 ^ 36 :=
      Nat.pow_le_pow_right (by decide) (by rw [Family.width_v6]; omega)
    omega
  · intro h
    have hlarge : 2 ^ 37 ≤ 2 ^ (Family.width .v6 - n.len) :=
      Nat.pow_le_pow_right (by decide) (by rw [Family.width_v6]; omega)
    omega

theorem inPlace_iff_toNat {n : Network .v6} {k : Nat} {a : Address .v6} : InPlace n k a ↔
    a.toNat / n.size = n.address.toNat / n.size ∧ a.toNat / 2 ^ 48 = n.first.toNat / 2 ^ 48 ∧
      a.toNat % 2 ^ 48 = 0x001000000000 + k := by
  constructor
  · rintro ⟨hinside, hhigh, hlow⟩
    exact ⟨of_decide_eq_true hinside, hhigh, hlow⟩
  · rintro ⟨hinside, hhigh, hlow⟩
    exact ⟨decide_eq_true hinside, hhigh, hlow⟩

/-- A node is in its place just if the subnet has no host bits, leaves the last 37 bits free and has no
other groups than zeros behind its double colon. -/
theorem inPlace_continued_iff {s h t : List Char} {hs ts : List Nat} {n : Network .v6}
    (hc : Continues s h t hs ts) (hn : Address.read? .v6 s = some n.address) {k : Nat} (hk : k < 65536) :
    InPlace n k (continued hs ts k) ↔ n.isPlain = true ∧ n.len ≤ 91 ∧ ∀ g ∈ ts, g = 0 := by
  have hsite := site_iff n.size_pos (getLastD_lt hc) (by omega) (toNat_of_read? hc hn) n.toNat_first
    (toNat_continued hc hk)
  rw [two_pow_lt_size_iff (by omega), ← joined_dropLast, joined_eq_zero_iff (by decide)] at hsite
  rw [inPlace_iff_toNat, hsite, Network.isPlain, decide_eq_true_eq, BitVec.toNat_eq]

section Subnet

variable {subnet : List Char} {n : Network .v6} (hn : Network.read? .v6 subnet = some n)

include hn

theorem host?_eq_some_iff {e : List Char} {k : Nat} (he : group? e = some k) (hcolon : ':' ∉ e)
    (host : String) : host? subnet ('1' :: '0' :: ':' :: '0' :: ':' :: e) = some host ↔
      ∃ h t hs ts, Continues (stem subnet) h t hs ts ∧ host = (continued hs ts k).text .v6 := by
  have hread : (allGroups? (stem subnet)).isSome := by
    have haddress := read?_stem hn
    rw [Address.read?] at haddress
    cases hgroups : allGroups? (stem subnet) with
    | some gs => rfl
    | none => simp [hgroups] at haddress
  rw [host?, Address.read?, Option.map_map, Option.map_eq_some_iff]
  simp only [allGroups?_append_suffix he hcolon hread, Function.comp_apply]
  constructor
  · rintro ⟨gs, ⟨h, t, hs, ts, hc, rfl⟩, rfl⟩
    exact ⟨h, t, hs, ts, hc, rfl⟩
  · rintro ⟨h, t, hs, ts, hc, rfl⟩
    exact ⟨filled hs (extended ts k), ⟨h, t, hs, ts, hc, rfl⟩, rfl⟩

theorem hosts?_eq_some_iff {p : String × String} : hosts? subnet = some p ↔
    ∃ h t hs ts, Continues (stem subnet) h t hs ts ∧
      p = ((continued hs ts 2).text .v6, (continued hs ts 3).text .v6) := by
  have hfirst := host?_eq_some_iff hn (by decide : group? ['2'] = some 2) (by decide)
  have hsecond := host?_eq_some_iff hn (by decide : group? ['3'] = some 3) (by decide)
  rw [hosts?, hn]
  simp only [Option.bind_eq_bind, Option.bind_some, Option.bind_eq_some_iff, Option.some.injEq, firstSuffix,
    secondSuffix, hfirst, hsecond]
  constructor
  · rintro ⟨a, ⟨h, t, hs, ts, hc, rfl⟩, b, ⟨h', t', hs', ts', hc', rfl⟩, rfl⟩
    obtain ⟨rfl, rfl⟩ := Continues.unique hc hc'
    exact ⟨h, t, hs, ts, hc, rfl⟩
  · rintro ⟨h, t, hs, ts, hc, rfl⟩
    exact ⟨_, ⟨h, t, hs, ts, hc, rfl⟩, _, ⟨h, t, hs, ts, hc, rfl⟩, rfl⟩

end Subnet

/-- The value is the text of a subnet with room for the groups of a node. -/
def Sited (v : Value) (n : Network .v6) (hs ts : List Nat) : Prop :=
  ∃ (subnet : String) (h t : List Char), v = .string subnet ∧
    Network.read? .v6 subnet.toList = some n ∧ Continues (stem subnet.toList) h t hs ts

/-- The topology in which the node at the first address is enabled, or the one at the second. -/
def ordered (path : String) (first : Bool) (a b : Address .v6) : Topology :=
  if first then ⟨path, a.text .v6, b.text .v6⟩ else ⟨path, b.text .v6, a.text .v6⟩

section File

variable {path text : String} {whole v : Value}

theorem flag_eq_ok {key : String} {b : Bool} :
    flag whole key = .ok b ↔ whole.get? key = some (.bool b) := by
  rw [flag, bind_eq_ok]
  cases hkey : whole.get? key with
  | none => simp [required, hkey]
  | some v => cases v <;> simp [required, hkey, Value.bool?]

theorem flag_ne_badSubnet {key : String} : flag whole key ≠ .error (.badSubnet v) := by
  cases hkey : whole.get? key with
  | none => simp [flag, required, hkey, bind, Except.bind]
  | some w => cases w <;> simp [flag, required, hkey, Value.bool?, bind, Except.bind]

theorem hosts?_bind_eq_some_iff {p : String × String} :
    (v.string?.bind fun s => hosts? s.toList) = some p ↔ ∃ n hs ts, Sited v n hs ts ∧
      p = ((continued hs ts 2).text .v6, (continued hs ts 3).text .v6) := by
  constructor
  · intro hbind
    obtain ⟨subnet, hv, hp⟩ := Option.bind_eq_some_iff.1 hbind
    obtain rfl : v = .string subnet := by
      cases v <;> cases hv
      rfl
    have hnetwork := hp
    rw [hosts?] at hnetwork
    obtain ⟨n, hn, -⟩ := Option.bind_eq_some_iff.1 hnetwork
    obtain ⟨h, t, hs, ts, hc, rfl⟩ := (hosts?_eq_some_iff hn).1 hp
    exact ⟨n, hs, ts, ⟨subnet, h, t, rfl, hn, hc⟩, rfl⟩
  · rintro ⟨n, hs, ts, ⟨subnet, h, t, rfl, hn, hc⟩, rfl⟩
    exact (hosts?_eq_some_iff hn).2 ⟨h, t, hs, ts, hc, rfl⟩

theorem hosts_eq_ok (hv : whole.get? subnetKey = some v) {p : String × String} :
    hosts whole = .ok p ↔ ∃ n hs ts, Sited v n hs ts ∧
      p = ((continued hs ts 2).text .v6, (continued hs ts 3).text .v6) := by
  rw [← hosts?_bind_eq_some_iff, hosts, required, hv]
  cases hp : v.string?.bind fun s => hosts? s.toList with
  | none => simp [bind, Except.bind, hp]
  | some q => simp [bind, Except.bind, hp]

theorem hosts_eq_error (hv : whole.get? subnetKey = some v) :
    hosts whole = .error (.badSubnet v) ↔ ¬ ∃ n hs ts, Sited v n hs ts := by
  constructor
  · rintro herror ⟨n, hs, ts, hsited⟩
    have hok := (hosts_eq_ok hv).2 ⟨n, hs, ts, hsited, rfl⟩
    rw [herror] at hok
    cases hok
  · intro hnone
    cases hp : v.string?.bind fun s => hosts? s.toList with
    | none => simp [hosts, required, hv, bind, Except.bind, hp]
    | some p =>
      obtain ⟨n, hs, ts, hsited, -⟩ := hosts?_bind_eq_some_iff.1 hp
      exact absurd ⟨n, hs, ts, hsited⟩ hnone

theorem ofValue_eq_ok (hv : whole.get? subnetKey = some v) {top : Topology} :
    ofValue path whole = .ok top ↔ ∃ n hs ts first, Sited v n hs ts ∧
      whole.get? firstKey = some (.bool first) ∧ whole.get? secondKey = some (.bool !first) ∧
      top = ordered path first (continued hs ts 2) (continued hs ts 3) := by
  rw [ofValue, bind_eq_ok]
  simp only [hosts_eq_ok hv, bind_eq_ok, flag_eq_ok]
  constructor
  · rintro ⟨-, ⟨n, hs, ts, hsited, rfl⟩, first, hfirst, second, hsecond, htop⟩
    refine ⟨n, hs, ts, first, hsited, hfirst, ?_⟩
    cases first <;> cases second <;> cases htop <;> exact ⟨hsecond, rfl⟩
  · rintro ⟨n, hs, ts, first, hsited, hfirst, hsecond, rfl⟩
    refine ⟨_, ⟨n, hs, ts, hsited, rfl⟩, first, hfirst, _, hsecond, ?_⟩
    cases first <;> rfl

theorem ofValue_eq_badSubnet (path : String) (hv : whole.get? subnetKey = some v) :
    ofValue path whole = .error (.badSubnet v) ↔ ¬ ∃ n hs ts, Sited v n hs ts := by
  rw [← hosts_eq_error hv]
  cases hhosts : hosts whole with
  | error f => simp [ofValue, hhosts, bind, Except.bind]
  | ok p =>
    refine ⟨fun h => ?_, nofun⟩
    cases hfirst : flag whole firstKey with
    | error f =>
      simp only [ofValue, hhosts, hfirst, bind, Except.bind, Except.error.injEq] at h
      exact absurd (h ▸ hfirst) flag_ne_badSubnet
    | ok first =>
      cases hsecond : flag whole secondKey with
      | error f =>
        simp only [ofValue, hhosts, hfirst, hsecond, bind, Except.bind, Except.error.injEq] at h
        exact absurd (h ▸ hsecond) flag_ne_badSubnet
      | ok second =>
        cases first <;> cases second <;> simp [ofValue, hhosts, hfirst, hsecond, bind, Except.bind] at h

/-- A file gives a topology just if its subnet has room for the groups of a node and one node alone is enabled;
without that room the subnet is bad. The nodes are in their places just if the subnet has no host bits, leaves
the last 37 bits free and has no other groups than zeros behind its double colon. -/
theorem sites_of_ofText (path : String) (hread : Json.read text = .ok whole)
    (hv : whole.get? subnetKey = some v) :
    (∀ top, ofText path text = .ok top ↔ ∃ n hs ts first, Sited v n hs ts ∧
      whole.get? firstKey = some (.bool first) ∧ whole.get? secondKey = some (.bool !first) ∧
      top = ordered path first (continued hs ts 2) (continued hs ts 3)) ∧
    (ofText path text = .error (.flawed path (.badSubnet v) whole) ↔ ¬ ∃ n hs ts, Sited v n hs ts) ∧
    ∀ n hs ts, Sited v n hs ts →
      (InPlace n 2 (continued hs ts 2) ∧ InPlace n 3 (continued hs ts 3) ↔
        n.isPlain = true ∧ n.len ≤ 91 ∧ ∀ g ∈ ts, g = 0) := by
  have htext : ofText path text = (ofValue path whole).mapError fun e => .flawed path e whole := by
    rw [ofText, hread]
  refine ⟨fun top => ?_, ?_, ?_⟩
  · rw [htext, mapError_eq_ok, ofValue_eq_ok hv]
  · rw [htext, ← ofValue_eq_badSubnet path hv]
    cases ofValue path whole with
    | ok top => exact ⟨nofun, nofun⟩
    | error f =>
      constructor
      · intro h
        cases h
        rfl
      · intro h
        cases h
        rfl
  · rintro n hs ts ⟨subnet, h, t, -, hn, hc⟩
    have haddress := read?_stem hn
    rw [inPlace_continued_iff hc haddress (by decide), inPlace_continued_iff hc haddress (by decide), and_self]

end File

def podText : String :=
  "\x7b\"ipv6_subnet\": \"2a02:2078:3::/48\", \"podnet_a_enabled\": true, \"podnet_b_enabled\": false\x7d"

def podValue : Value :=
  .object [("ipv6_subnet", .string "2a02:2078:3::/48"), ("podnet_a_enabled", .bool true),
    ("podnet_b_enabled", .bool false)]

def podSubnet : Network .v6 := Network.ofLen 0x2a022078000300000000000000000000 48

theorem sited_pod : Sited (.string "2a02:2078:3::/48") podSubnet [0x2a02, 0x2078, 0x3] [] := by
  refine ⟨_, "2a02:2078:3".toList, [], rfl, by decide +kernel, ?_⟩
  constructor <;> decide +kernel

/-- The subnet of the pods has both nodes in their places. -/
theorem sites_of_ofText_pod : Json.read podText = .ok podValue ∧
    podValue.get? subnetKey = some (.string "2a02:2078:3::/48") ∧
    ∃ a b, ofText "config.json" podText = .ok (ordered "config.json" true a b) ∧
      InPlace podSubnet 2 a ∧ InPlace podSubnet 3 b := by
  have hread : Json.read podText = .ok podValue := by cbv
  have hv : podValue.get? subnetKey = some (.string "2a02:2078:3::/48") := by cbv
  obtain ⟨hok, -, hplace⟩ := sites_of_ofText "config.json" hread hv
  obtain ⟨ha, hb⟩ := (hplace _ _ _ sited_pod).2 ⟨by decide, by decide, by decide⟩
  exact ⟨hread, hv, _, _, (hok _).2 ⟨_, _, _, true, sited_pod, by cbv, by cbv, rfl⟩, ha, hb⟩

def strayedText : String :=
  "\x7b\"ipv6_subnet\": \"2a02:2078:3::1/48\", \"podnet_a_enabled\": true, \"podnet_b_enabled\": false\x7d"

def strayedSubnet : Network .v6 := Network.ofLen 0x2a022078000300000000000000000001 48

/-- With a host bit in the subnet no node is at its place: the first one is at `2a02:2078:3::110:0:2`, and no
address there has this text. -/
theorem merged_group : Network.read? .v6 "2a02:2078:3::1/48".toList = some strayedSubnet ∧
    (ofText "config.json" strayedText).toOption =
      some ⟨"config.json", "2a02:2078:3::110:0:2", "2a02:2078:3::110:0:3"⟩ ∧
    InPlace strayedSubnet 2 0x2a022078000300000000001000000002 ∧
    ∀ a, InPlace strayedSubnet 2 a → a.text .v6 ≠ "2a02:2078:3::110:0:2" := by
  refine ⟨by decide +kernel, by decide +kernel, ⟨by decide, by decide, by decide⟩, fun a ha htext => ?_⟩
  have hread := read?_text .v6 a
  have haddress : Address.read? .v6 "2a02:2078:3::110:0:2".toList =
      some 0x2a022078000300000000011000000002 := by decide +kernel
  rw [htext, haddress] at hread
  have hlow := ha.low
  rw [← Option.some.inj hread] at hlow
  revert hlow
  decide

end Topology
end TwinWall
