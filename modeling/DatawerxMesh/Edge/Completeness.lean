import DatawerxMesh.Edge.Allocate
import Mathlib.Order.Interval.Finset.Nat

/-!
# Which demands the allocators meet

Both allocators reject a demand that exceeds the range and then probe within a budget.  They meet
every other demand if the hashes of each key spread over as many offsets as there are keys.  Up to
sixteen addresses they hit every offset.
-/

namespace DatawerxMesh.Edge

open Go Sorting Addressing Probing Dns List AddressRange

/-- Every key probes at least as many different offsets besides 0 as there are keys. -/
def Spread (hostBits : Nat) (keys : List Str) : Prop :=
  ∀ key ∈ keys, keys.length ≤
    (AddressRange.probes (2 ^ hostBits) (keys.length + maxProbeBudget) key).toFinset.card

theorem card_candidates (net : IPNet) (budget : Nat) (key : Str) :
    ((AddressRange.ofNet net).candidates budget key).toFinset.card =
      (AddressRange.probes (2 ^ hostBits net) budget key).toFinset.card := by
  have lawful := ofNet_lawful net
  have image : ((AddressRange.ofNet net).candidates budget key).toFinset =
      (AddressRange.probes (2 ^ hostBits net) budget key).toFinset.image
        fun off => ((AddressRange.ofNet net).address off).string := by
    ext s
    simp [AddressRange.candidates, size_ofNet]
  rw [image]
  refine Finset.card_image_of_injOn ?_
  refine (address_string_injOn lawful).mono fun off probed => ?_
  rw [Finset.mem_coe, mem_toFinset, ← size_ofNet] at probed
  exact (probes_lt lawful probed).2

/-- A key probes `count` different offsets exactly if it finds an address whatever smaller number of
addresses others hold. -/
theorem le_card_probes_iff (net : IPNet) (budget count : Nat) (key : Str) :
    count ≤ (AddressRange.probes (2 ^ hostBits net) budget key).toFinset.card ↔
      ∀ used : List Str, used.length < count →
        ∃ s, Dns.allocateOne key (.ofNet net) budget used = some s := by
  rw [← card_candidates, le_card_iff]
  simp only [Dns.allocateOne_eq]

section Allocators

variable {net : IPNet}

theorem exists_allocateClusterSetIPs {go : Runtime Dns.Site} {cidr : Str}
    (parsed : parseNet cidr = some net) {keys : List ServiceKey}
    (enough : keys.length + 1 ≤ 2 ^ hostBits net)
    (spread : Spread (hostBits net) (keys.map ServiceKey.string)) :
    ∃ out, allocateClusterSetIPs go cidr keys = .ok out := by
  have sorted := (go.sortSlice_arranges Dns.Site.sortServiceKeys lessKey_orders keys).perm
  obtain ⟨placed, placed_eq⟩ : ∃ placed, place
      (fun k => (AddressRange.ofNet net).candidates (keys.length + maxProbeBudget) k.string)
      [] (sortServiceKeys go keys) = some placed := by
    refine exists_place_of_card fun k mem => ?_
    have own := spread k.string (mem_map_of_mem (sorted.mem_iff.mp mem))
    rw [length_map] at own
    rw [card_candidates, sortServiceKeys, sorted.length_eq, length_nil, Nat.zero_add]
    exact own
  exact ⟨_, (allocateClusterSetIPs_eq_ok parsed).mpr ⟨enough, placed, placed_eq, rfl⟩⟩

variable {claims : List DeviceClaim}

theorem candidates_of_bare {c : DeviceClaim} (bare : trimSpace c.address = []) (budget : Nat) :
    c.candidates net budget = (AddressRange.ofNet net).candidates budget c.key := by
  simp [DeviceClaim.candidates, DeviceClaim.pinned, bare]

theorem placementOrder_of_bare (go : Runtime Site)
    (bare : ∀ claim ∈ claims, trimSpace claim.address = []) :
    placementOrder (sortClaims go claims) = sortClaims go claims := by
  have sorted := (go.sortSlice_arranges Site.sortClaims lessClaim_orders claims).perm
  refine placementOrder_of_unpinned fun claim mem => ?_
  simp [DeviceClaim.pinned, bare claim (sorted.mem_iff.mp mem)]

theorem exists_allocateDeviceIPs {go : Runtime Site} {edgeCIDR : Str}
    (parsed : parseNet (trimSpace edgeCIDR) = some net)
    (bare : ∀ claim ∈ claims, trimSpace claim.address = [])
    (enough : claims.length + 1 ≤ 2 ^ hostBits net)
    (spread : Spread (hostBits net) (claims.map DeviceClaim.key)) :
    ∃ out, allocateDeviceIPs go edgeCIDR claims = .ok out := by
  have sorted := (go.sortSlice_arranges Site.sortClaims lessClaim_orders claims).perm
  obtain ⟨placed, placed_eq⟩ : ∃ placed,
      place (DeviceClaim.candidates net (claims.length + maxProbeBudget)) []
        (placementOrder (sortClaims go claims)) = some placed := by
    rw [placementOrder_of_bare go bare]
    refine exists_place_of_card fun c mem => ?_
    have in_claims := sorted.mem_iff.mp mem
    have own := spread c.key (mem_map_of_mem in_claims)
    rw [length_map] at own
    rw [candidates_of_bare (bare c in_claims), card_candidates, sortClaims, sorted.length_eq,
      length_nil, Nat.zero_add]
    exact own
  exact ⟨_, (allocateDeviceIPs_eq_ok parsed).mpr ⟨enough, placed, placed_eq, rfl⟩⟩

end Allocators

/-- The low bits of a step of the hash. -/
def lowStep (hash : BitVec 4) (byte : UInt8) : BitVec 4 := (hash ^^^ byte.toBitVec.setWidth 4) * 3#4

theorem setWidth_fnv64a_append (text more : Str) :
    (fnv64a (text ++ more)).setWidth 4 = more.foldl lowStep ((fnv64a text).setWidth 4) := by
  induction more using List.reverseRecOn with
  | nil => simp
  | append_singleton more byte ih =>
    rw [foldl_append, ← ih]
    simp only [fnv64a, foldl_append, foldl_cons, foldl_nil]
    rw [BitVec.setWidth_mul _ _ (by decide), BitVec.setWidth_xor]
    rfl

theorem exists_attempt (hash residue : BitVec 4) :
    ∃ attempt < 65, (itoa attempt).foldl lowStep hash = residue := by
  revert hash residue
  decide +kernel

theorem mem_probes {bits budget off : Nat} (small : bits ≤ 4) (enough : 65 ≤ budget) (key : Str)
    (positive : 0 < off) (inside : off < 2 ^ bits) :
    off ∈ AddressRange.probes (2 ^ bits) budget key := by
  have bounded : 2 ^ bits ∣ 2 ^ 4 := pow_dvd_pow 2 small
  obtain ⟨attempt, early, residue_eq⟩ :=
    exists_attempt ((fnv64a (key ++ "#")).setWidth 4) (BitVec.ofNat 4 off)
  rw [← setWidth_fnv64a_append] at residue_eq
  have hit : Dns.offsetInRange key attempt (2 ^ bits) = off := by
    have low := congrArg (fun residue => residue.toNat % 2 ^ bits) residue_eq
    simp only [BitVec.toNat_setWidth, BitVec.toNat_ofNat, Nat.mod_mod_of_dvd _ bounded] at low
    rw [Dns.offsetInRange, low, Nat.mod_eq_of_lt inside]
  refine mem_filter.mpr ⟨mem_map.mpr ⟨attempt, ?_, hit⟩, by simpa using positive.ne'⟩
  exact mem_range.mpr (early.trans_le enough)

theorem spread_of_hostBits_le_four {bits : Nat} {keys : List Str} (small : bits ≤ 4)
    (enough : keys.length + 1 ≤ 2 ^ bits) : Spread bits keys := by
  intro key mem
  have all : Finset.Ioo 0 (2 ^ bits) ⊆
      (AddressRange.probes (2 ^ bits) (keys.length + maxProbeBudget) key).toFinset := by
    intro off off_mem
    rw [Finset.mem_Ioo] at off_mem
    have budget : 65 ≤ keys.length + maxProbeBudget := by
      have nonempty := length_pos_of_mem mem
      rw [maxProbeBudget]
      omega
    exact mem_toFinset.mpr (mem_probes small budget key off_mem.1 off_mem.2)
  have count := Finset.card_le_card all
  rw [Nat.card_Ioo] at count
  omega

/-- As many services as a range of 64 addresses has besides the network address. -/
def webServices : List ServiceKey :=
  (List.range 63).map fun n => ⟨"prod", "web" ++ itoa n⟩

theorem place_webServices : place (fun k : ServiceKey => AddressRange.probes 64 127 k.string) []
    (sortServiceKeys (.stable _) webServices) = none := by decide +kernel

theorem place_webDevices : place (fun c : DeviceClaim => AddressRange.probes 64 127 c.key) []
    (sortClaims (.stable _) (webServices.map fun k => ⟨k.string, []⟩)) = none := by
  decide +kernel

end DatawerxMesh.Edge
