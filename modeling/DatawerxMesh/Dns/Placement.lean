import DatawerxMesh.Dns.Allocate
import DatawerxMesh.Go.ColonText
import DatawerxMesh.Library.Outcome
import DatawerxMesh.Library.Probing

/-!
# What the allocation of virtual addresses guarantees

The loop of `AllocateClusterSetIPs` is open addressing with the addresses of the range as cells.
-/

namespace DatawerxMesh.Dns

open Go Sorting Addressing Probing Option List AddressRange

/-- The number of bits behind the mask of a network. -/
def hostBits : IPNet → Nat
  | .four block => 32 - block.len
  | .sixteen block => 128 - block.len

namespace AddressRange

/-- A range within the addresses of its width. -/
structure Lawful (range : AddressRange) : Prop where
  width : range.byteLen = 4 ∨ range.byteLen = 16
  bounded : range.baseInt + range.size ≤ 256 ^ range.byteLen
  inhabited : 0 < range.size

/-- The address at an offset. -/
def address (range : AddressRange) (off : Nat) : IP :=
  bigToIP (range.baseInt + off) range.byteLen

/-- The number that an address text denotes in the width of the range. -/
def numberOf (range : AddressRange) (text : Str) : Option Nat :=
  (parseIP text).bind fun ip =>
    if range.byteLen = 4 then ip.to4.map BitVec.toNat else some ip.to16.toNat

/-- The offsets that a key probes within a budget, without the network address. -/
def probes (size budget : Nat) (key : Str) : List Nat :=
  ((List.range budget).map fun attempt => offsetInRange key attempt size).filter (· ≠ 0)

/-- The addresses that a key may get. -/
def candidates (range : AddressRange) (budget : Nat) (key : Str) : List Str :=
  (probes range.size budget key).map fun off => (range.address off).string

theorem size_ofNet (net : IPNet) : (ofNet net).size = 2 ^ hostBits net := by
  unfold ofNet
  cases net with
  | four block => rfl
  | sixteen block =>
    dsimp only [hostBits]
    split <;> rfl

/-- A mapped network has its IPv4 base and at most 32 host bits. -/
theorem ofNet_cases (net : IPNet) :
    (∃ block, net.block4 = some block ∧ ofNet net = ⟨block.base.toNat, 2 ^ (32 - block.len), 4⟩) ∨
      ∃ block, net = .sixteen block ∧ net.number = .inr block ∧
        ofNet net = ⟨block.base.toNat, 2 ^ (128 - block.len), 16⟩ := by
  cases net with
  | four block => exact Or.inl ⟨block, rfl, rfl⟩
  | sixteen block =>
    cases view : unmap block.base with
    | none =>
      refine Or.inr ⟨block, rfl, ?_, ?_⟩
      · simp [IPNet.number, view]
      · simp [ofNet, IPNet.ip, IP.to4, view]
    | some low =>
      have long := len_of_unmap view
      have fits := block.len_le
      refine Or.inl ⟨mappedBlock block low, by simp [IPNet.block4, IPNet.number, view], ?_⟩
      have mapped_len : (mappedBlock block low).len = block.len - 96 :=
        min_eq_left (by omega)
      rw [mappedBlock_base view, mapped_len, show 32 - (block.len - 96) = 128 - block.len by
        omega]
      simp [ofNet, IPNet.ip, IP.to4, view]

theorem ofNet_lawful (net : IPNet) : (ofNet net).Lawful := by
  rcases ofNet_cases net with ⟨block, -, range_eq⟩ | ⟨block, -, -, range_eq⟩
  · rw [range_eq]
    exact ⟨Or.inl rfl, block.base_add_size_le, Nat.two_pow_pos _⟩
  · rw [range_eq]
    exact ⟨Or.inr rfl, block.base_add_size_le, Nat.two_pow_pos _⟩

section Lawful

variable {range : AddressRange} (lawful : range.Lawful)

include lawful

theorem numberOf_address {off : Nat} (inside : off < range.size) :
    range.numberOf (range.address off).string = some (range.baseInt + off) := by
  have bounded := lawful.bounded
  rw [numberOf, parseIP_string, bind_some]
  rcases lawful.width with four | sixteen
  · rw [four] at bounded
    rw [if_pos four, address, bigToIP, if_pos four, IP.to16, IP.to4, unmap_mapped, map_some,
      BitVec.toNat_ofNat, Nat.mod_eq_of_lt (by omega)]
  · rw [sixteen] at bounded
    rw [if_neg (by omega), address, bigToIP, if_neg (by omega), IP.to16, IP.to16,
      BitVec.toNat_ofNat, Nat.mod_eq_of_lt (by omega)]

theorem address_string_injOn :
    Set.InjOn (fun off => (range.address off).string) {off | off < range.size} := by
  intro left left_inside right right_inside same
  have denoted := congrArg range.numberOf same
  rw [numberOf_address lawful left_inside, numberOf_address lawful right_inside] at denoted
  exact Nat.add_left_cancel (Option.some.inj denoted)

theorem offsetInRange_lt (key : Str) (attempt : Nat) :
    offsetInRange key attempt range.size < range.size :=
  Nat.mod_lt _ lawful.inhabited

theorem probes_lt {budget : Nat} {key : Str} {off : Nat}
    (mem : off ∈ probes range.size budget key) : 0 < off ∧ off < range.size := by
  obtain ⟨probed, nonzero⟩ := mem_filter.mp mem
  obtain ⟨attempt, -, rfl⟩ := mem_map.mp probed
  exact ⟨Nat.pos_of_ne_zero (by simpa using nonzero), offsetInRange_lt lawful key attempt⟩

theorem numberOf_of_mem_candidates {budget : Nat} {key s : Str}
    (mem : s ∈ range.candidates budget key) :
    ∃ off, 0 < off ∧ off < range.size ∧ range.numberOf s = some (range.baseInt + off) := by
  obtain ⟨off, probed, rfl⟩ := mem_map.mp mem
  obtain ⟨positive, inside⟩ := probes_lt lawful probed
  exact ⟨off, positive, inside, numberOf_address lawful inside⟩

end Lawful

theorem candidates_mono {range : AddressRange} {budget budget' : Nat} (le : budget ≤ budget')
    (key : Str) : range.candidates budget key <+: range.candidates budget' key := by
  have longer : List.range budget <+: List.range budget' := by
    obtain ⟨more, rfl⟩ := Nat.exists_eq_add_of_le le
    exact ⟨_, range_add.symm⟩
  exact ((longer.map _).filter _).map _

theorem numberOf_ip (net : IPNet) :
    (ofNet net).numberOf net.ip.string = some (ofNet net).baseInt := by
  have base := IPNet.to4_ip net
  rw [numberOf, parseIP_string, bind_some]
  rcases ofNet_cases net with ⟨block, view, range_eq⟩ | ⟨block, rfl, view, range_eq⟩
  · rw [range_eq, to4_to16, base, view]
    rfl
  · rw [range_eq]
    rfl

theorem numberOf_of_contains {net : IPNet} {ip : IP} (inside : net.contains ip = true) :
    ∃ off < 2 ^ hostBits net,
      (ofNet net).numberOf ip.string = some ((ofNet net).baseInt + off) := by
  rw [← size_ofNet, numberOf, parseIP_string, bind_some]
  unfold IPNet.contains at inside
  rcases ofNet_cases net with ⟨block, view, range_eq⟩ | ⟨block, rfl, view, range_eq⟩
  · rw [IPNet.number_eq_inl.mpr view] at inside
    cases low_eq : ip.to4 with
    | none => simp [low_eq] at inside
    | some low =>
      simp only [low_eq] at inside
      obtain ⟨off, small, number_eq⟩ := block.exists_offset_of_contains inside
      rw [range_eq, to4_to16, low_eq, map_some, number_eq]
      exact ⟨off, small, rfl⟩
  · rw [view] at inside
    cases ip with
    | four own => simp [IP.to4] at inside
    | sixteen own =>
      cases low_eq : unmap own with
      | some low => simp [IP.to4, low_eq] at inside
      | none =>
        simp only [IP.to4, low_eq] at inside
        obtain ⟨off, small, number_eq⟩ := block.exists_offset_of_contains inside
        rw [range_eq]
        exact ⟨off, small, congrArg some number_eq⟩

theorem to16_of_numberOf {range : AddressRange} {ip x : IP} {number : Nat}
    (ip_eq : range.numberOf ip.string = some number)
    (x_eq : range.numberOf x.string = some number) : ip.to16 = x.to16 := by
  rw [numberOf, parseIP_string, bind_some] at ip_eq x_eq
  split at ip_eq
  case isTrue four =>
    rw [if_pos four, to4_to16, map_eq_some_iff] at x_eq
    rw [to4_to16, map_eq_some_iff] at ip_eq
    obtain ⟨low, low_eq, rfl⟩ := ip_eq
    obtain ⟨other, other_eq, same⟩ := x_eq
    rw [to16_of_to4 low_eq, to16_of_to4 other_eq, BitVec.eq_of_toNat_eq same]
  case isFalse sixteen =>
    rw [if_neg sixteen] at x_eq
    exact BitVec.eq_of_toNat_eq ((Option.some.inj ip_eq).trans (Option.some.inj x_eq).symm)

end AddressRange

theorem allocateOne_eq (key : Str) (range : AddressRange) (budget : Nat) (used : List Str) :
    allocateOne key range budget used = firstFree used (range.candidates budget key) := by
  rw [allocateOne, AddressRange.candidates, AddressRange.probes, firstFree]
  induction List.range budget with
  | nil => rfl
  | cons attempt attempts ih =>
    rw [List.findSome?_cons, ih]
    by_cases reserved : offsetInRange key attempt range.size = 0
    · simp [reserved]
    · by_cases taken : (range.address (offsetInRange key attempt range.size)).string ∈ used
      · simp_all [AddressRange.address]
      · simp_all [AddressRange.address]

theorem allocateKeys_eq_ok {cidr : Str} {range : AddressRange} {budget : Nat} {used : List Str}
    {out result : Allocation} {keys : List ServiceKey} :
    allocateKeys cidr range budget used out keys = .ok result ↔
      ∃ placed, place (fun k => range.candidates budget k.string) used keys = some placed ∧
        result = fill out placed := by
  induction keys generalizing used out with
  | nil => simp [allocateKeys, place, fill, eq_comm]
  | cons k keys ih =>
    rw [allocateKeys, allocateOne_eq]
    cases free : firstFree used (range.candidates budget k.string) with
    | none => simp [place, free]
    | some s =>
      refine ih.trans (Iff.symm (exists_place_cons ?_))
      exact free

theorem allocateClusterSetIPs_eq_ok {go : Runtime Site} {cidr : Str} {net : IPNet}
    (parsed : parseNet cidr = some net) {keys : List ServiceKey} {out : Allocation} :
    allocateClusterSetIPs go cidr keys = .ok out ↔ keys.length + 1 ≤ 2 ^ hostBits net ∧ ∃ placed,
        place (fun k => (AddressRange.ofNet net).candidates (keys.length + maxProbeBudget) k.string)
          [] (sortServiceKeys go keys) = some placed ∧ out = fill ∅ placed := by
  have length_eq : (sortServiceKeys go keys).length = keys.length :=
    (go.sortSlice_arranges _ lessKey_orders keys).perm.length_eq
  rw [allocateClusterSetIPs, parsed]
  dsimp only
  rw [length_eq, size_ofNet]
  split
  case isTrue small =>
    simp only [reduceCtorEq, false_iff]
    omega
  case isFalse large =>
    rw [allocateKeys_eq_ok, iff_and_self]
    omega

/-- A successful allocation gives every key an address of its own in the range, never the network
address, and no number that is rendered on the way loses a byte. -/
theorem allocateClusterSetIPs_safe (go : Runtime Site) (cidr : Str) (net : IPNet)
    (parsed : parseNet cidr = some net) (keys : List ServiceKey) (distinct : keys.Nodup)
    (out : Allocation) (success : allocateClusterSetIPs go cidr keys = .ok out) :
    let range := AddressRange.ofNet net
    (∀ k, k ∈ out ↔ k ∈ keys) ∧
    (∀ k s, out.lookup k = some s →
      ∃ off, 0 < off ∧ off < 2 ^ hostBits net ∧ range.numberOf s = some (range.baseInt + off)) ∧
    (∀ k l s, out.lookup k = some s → out.lookup l = some s → k = l) ∧
    range.numberOf net.ip.string = some range.baseInt ∧
    (∀ k s, out.lookup k = some s → s ≠ net.ip.string) ∧
    ∀ key attempt, range.baseInt + offsetInRange key attempt range.size < 256 ^ range.byteLen := by
  intro range
  have lawful : range.Lawful := ofNet_lawful net
  obtain ⟨-, placed, placed_eq, rfl⟩ := (allocateClusterSetIPs_eq_ok parsed).mp success
  have sorted := (go.sortSlice_arranges Site.sortServiceKeys lessKey_orders keys).perm
  have keys_eq : placed.map Prod.fst = sortServiceKeys go keys := keys_of_place placed_eq
  have nodup : (placed.map Prod.fst).Nodup := by
    rw [keys_eq]
    exact sorted.nodup_iff.mpr distinct
  have denotes : ∀ k s, (fill ∅ placed).lookup k = some s →
      ∃ off, 0 < off ∧ off < range.size ∧ range.numberOf s = some (range.baseInt + off) := by
    intro k s found
    have mem := (lookup_fill_eq_some nodup).mp found
    exact numberOf_of_mem_candidates lawful (mem_of_place placed_eq mem).1
  refine ⟨fun k => ?_, ?_, fun k l s k_eq l_eq => ?_, numberOf_ip net, ?_, ?_⟩
  · rw [mem_fill nodup, keys_eq]
    exact sorted.mem_iff
  · rw [← size_ofNet]
    exact denotes
  · have entries := inj_on_of_nodup_map (nodup_of_place placed_eq)
      ((lookup_fill_eq_some nodup).mp k_eq) ((lookup_fill_eq_some nodup).mp l_eq) rfl
    exact (Prod.mk.inj entries).1
  · rintro k s found rfl
    obtain ⟨off, positive, -, number_eq⟩ := denotes k _ found
    have base_eq : some range.baseInt = some (range.baseInt + off) :=
      (numberOf_ip net).symm.trans number_eq
    exact absurd (Option.some.inj base_eq) (by omega)
  · intro key attempt
    have inside := offsetInRange_lt lawful key attempt
    exact lt_of_lt_of_le (Nat.add_lt_add_left inside _) lawful.bounded

/-- Three services that fill a range of four addresses. -/
def exactFit : List ServiceKey :=
  [⟨"prod", "web"⟩, ⟨"prod", "api"⟩, ⟨"test", "web"⟩]

theorem allocateClusterSetIPs_safe_exactFit :
    ∃ net out, parseNet "241.0.0.0/30" = some net ∧
      allocateClusterSetIPs (.stable Site) "241.0.0.0/30" exactFit = .ok out ∧
      (∀ k, k ∈ out ↔ k ∈ exactFit) ∧
      ∀ k l s, out.lookup k = some s → out.lookup l = some s → k = l := by
  obtain ⟨net, parsed⟩ : ∃ net, parseNet "241.0.0.0/30" = some net :=
    isSome_iff_exists.mp (by decide +kernel)
  obtain ⟨out, success⟩ :
      ∃ out, allocateClusterSetIPs (.stable Site) "241.0.0.0/30" exactFit = .ok out :=
    Program.exists_of_isOk (by decide +kernel)
  have safe := allocateClusterSetIPs_safe _ _ net parsed exactFit (by decide) out success
  exact ⟨net, out, parsed, success, safe.1, safe.2.2.1⟩

/-- One more key moves the addresses of others only by taking one of them, and never those of keys
that are placed before it. -/
theorem allocateClusterSetIPs_stable (go go' : Runtime Site) (cidr : Str) (keys : List ServiceKey)
    (distinct : keys.Nodup) (own : Set.InjOn ServiceKey.string {k | k ∈ keys}) (added : ServiceKey)
    (fresh : added ∉ keys) (grown : List ServiceKey) (perm : grown.Perm (added :: keys))
    (old new : Allocation) (old_eq : allocateClusterSetIPs go cidr keys = .ok old)
    (new_eq : allocateClusterSetIPs go' cidr grown = .ok new) :
    (∀ k ∈ keys, less k.string added.string = true → new.lookup k = old.lookup k) ∧
    ((∀ k ∈ keys, old.lookup k ≠ new.lookup added) → ∀ k ∈ keys, new.lookup k = old.lookup k) := by
  cases parsed : parseNet cidr with
  | none => simp [allocateClusterSetIPs, parsed] at old_eq
  | some net =>
    obtain ⟨-, old_placed, old_place, rfl⟩ := (allocateClusterSetIPs_eq_ok parsed).mp old_eq
    obtain ⟨-, new_placed, new_place, rfl⟩ := (allocateClusterSetIPs_eq_ok parsed).mp new_eq
    have sorted : Arranges lessKey (added :: keys) (sortServiceKeys go' grown) := by
      have arranges := go'.sortSlice_arranges Site.sortServiceKeys lessKey_orders grown
      exact ⟨arranges.perm.trans perm, arranges.sorted⟩
    obtain ⟨before, after, split, rest, not_later⟩ := sorted.leave_out
    have rest_eq : sortServiceKeys go keys = before ++ after :=
      Arranges.unique lessKey_orders own (Perm.refl keys)
        (go.sortSlice_arranges Site.sortServiceKeys lessKey_orders keys) rest
    have all_distinct : (before ++ added :: after).Nodup := by
      rw [← split]
      exact sorted.perm.nodup_iff.mpr (nodup_cons.mpr ⟨fresh, distinct⟩)
    rw [rest_eq] at old_place
    rw [split] at new_place
    have longer (k : ServiceKey) :
        (AddressRange.ofNet net).candidates (keys.length + maxProbeBudget) k.string <+:
          (AddressRange.ofNet net).candidates (grown.length + maxProbeBudget) k.string := by
      refine candidates_mono ?_ _
      rw [perm.length_eq, length_cons]
      omega
    obtain ⟨front_kept, all_kept⟩ :=
      lookup_fill_insert all_distinct longer old_place new_place
    simp only [← rest.perm.mem_iff]
    refine ⟨fun k mem earlier => front_kept k ?_, all_kept⟩
    refine (mem_append.mp mem).resolve_right fun in_after => ?_
    have later := not_later k in_after
    rw [lessKey, earlier] at later
    cases later

theorem allocateClusterSetIPs_stable_exactFit :
    ∃ old new,
      allocateClusterSetIPs (.stable Site) "fd00:64::/64" (exactFit.take 2) = .ok old ∧
      allocateClusterSetIPs (.stable Site) "fd00:64::/64" exactFit = .ok new ∧
      ∀ k ∈ exactFit.take 2, new.lookup k = old.lookup k := by
  obtain ⟨old, old_eq⟩ : ∃ old,
      allocateClusterSetIPs (.stable Site) "fd00:64::/64" (exactFit.take 2) = .ok old :=
    Program.exists_of_isOk (by decide +kernel)
  obtain ⟨new, new_eq⟩ : ∃ new,
      allocateClusterSetIPs (.stable Site) "fd00:64::/64" exactFit = .ok new :=
    Program.exists_of_isOk (by decide +kernel)
  have no_slash : ∀ k ∈ exactFit.take 2, 47 ∉ k.namespace_ := by decide
  have stable := allocateClusterSetIPs_stable _ _ _ _ (by decide)
    (ServiceKey.string_injOn no_slash) ⟨"test", "web"⟩ (by decide) exactFit (by decide)
    old new old_eq new_eq
  have sorts_before : ∀ k ∈ exactFit.take 2,
      less k.string (ServiceKey.string ⟨"test", "web"⟩) = true := by decide
  exact ⟨old, new, old_eq, new_eq, fun k mem => stable.1 k mem (sorts_before k mem)⟩

end DatawerxMesh.Dns
