import DatawerxMesh.Go.ColonText
import DatawerxMesh.Topology.Plan

/-!
# What the planner keeps apart

The planner tests whether one network contains the base address of the other, which is the same as
having an address in common.
-/

namespace DatawerxMesh.Topology

open Go Addressing List

/-- An address is shared; as in `net.IPNet.Contains`, a mapped address is its IPv4 address. -/
def Shares (left right : IPNet) : Prop :=
  ∃ ip : IP, left.contains ip = true ∧ right.contains ip = true

theorem contains_ip_self (net : IPNet) : net.contains net.ip = true := by
  cases number : net.number with
  | inl block =>
    have view := IPNet.number_eq_inl.mp number
    rw [IPNet.contains_ip_of_block4 view view, Block.contains_base]
  | inr block =>
    cases net with
    | four own => cases number
    | sixteen own =>
      rw [IPNet.number] at number
      split at number
      · cases number
      · rename_i high
        simp [IPNet.contains, IPNet.number, IPNet.ip, IP.to4, high]

theorem cidrsOverlap_iff_shares (left right : IPNet) :
    cidrsOverlap left right = true ↔ Shares left right := by
  constructor
  · intro overlap
    rcases Bool.or_eq_true _ _ ▸ overlap with inside | inside
    · exact ⟨right.ip, inside, contains_ip_self right⟩
    · exact ⟨left.ip, contains_ip_self left, inside⟩
  · rintro ⟨ip, in_left, in_right⟩
    exact cidrsOverlap_of_contains in_left in_right

/-- Loopback, link-local and multicast addresses of both families. -/
def Reserved (ip : IP) : Prop :=
  match ip.to4 with
  | some address =>
    address.toNat / 2 ^ 24 = 127 ∨ address.toNat / 2 ^ 16 = 0xA9FE ∨ address.toNat / 2 ^ 28 = 0xE
  | none =>
    ip.to16.toNat = 1 ∨ ip.to16.toNat / 2 ^ 118 = 0x3FA ∨ ip.to16.toNat / 2 ^ 120 = 0xFF

/-- The network contains all IPv4 addresses, or all others. -/
def DefaultRoute (net : IPNet) : Prop :=
  (∀ address : BitVec 32, net.contains (.four address) = true) ∨
    ∀ address : BitVec 128, unmap address = none → net.contains (.sixteen address) = true

theorem contains_four_iff (block : Block 32) (ip : IP) :
    (IPNet.four block).contains ip = true ↔
      ∃ address, ip.to4 = some address ∧ block.contains address = true := by
  unfold IPNet.contains
  cases ip.to4 <;> simp [IPNet.number]

theorem contains_sixteen_iff {block : Block 128} (high : unmap block.base = none) (ip : IP) :
    (IPNet.sixteen block).contains ip = true ↔ ip.to4 = none ∧ block.contains ip.to16 = true := by
  cases ip with
  | four address => simp [IPNet.contains, IPNet.number, high, IP.to4]
  | sixteen address =>
    unfold IPNet.contains
    cases four : unmap address <;> simp [IPNet.number, high, IP.to4, IP.to16, four]

theorem dangerousNets_eq : dangerousNets = [.four (Block.around 0x7F000000#32 8 (by decide)),
      .sixteen (Block.around 1#128 128 (by decide)),
      .four (Block.around 0xA9FE0000#32 16 (by decide)),
      .sixteen (Block.around 0xFE800000000000000000000000000000#128 10 (by decide)),
      .four (Block.around 0xE0000000#32 4 (by decide)),
      .sixteen (Block.around 0xFF000000000000000000000000000000#128 8 (by decide))] := by
  decide +kernel

theorem exists_dangerous_iff (ip : IP) :
    (∃ net ∈ dangerousNets, net.contains ip = true) ↔ Reserved ip := by
  have loopback : unmap (Block.around 1#128 128 (by decide)).base = none := by decide
  have linkLocal : unmap (Block.around 0xFE800000000000000000000000000000#128 10 (by decide)).base =
      none := by decide
  have multicast : unmap (Block.around 0xFF000000000000000000000000000000#128 8 (by decide)).base =
      none := by decide
  rw [dangerousNets_eq, Reserved]
  simp only [mem_cons, not_mem_nil, or_false, exists_eq_or_imp, exists_eq_left,
    contains_four_iff, contains_sixteen_iff loopback, contains_sixteen_iff linkLocal,
    contains_sixteen_iff multicast]
  cases ip.to4 with
  | some address =>
    simp only [Option.some.injEq, exists_eq_left', reduceCtorEq, false_and, false_or, or_false]
    rw [Block.contains_around_iff_div _ _ (by decide) (by decide : _ = 127),
      Block.contains_around_iff_div _ _ (by decide) (by decide : _ = 0xA9FE),
      Block.contains_around_iff_div _ _ (by decide) (by decide : _ = 0xE)]
  | none =>
    simp only [reduceCtorEq, false_and, exists_false, true_and, false_or]
    rw [Block.contains_around_iff_div _ _ (by decide) (by decide : _ = 1),
      Block.contains_around_iff_div _ _ (by decide) (by decide : _ = 0x3FA),
      Block.contains_around_iff_div _ _ (by decide) (by decide : _ = 0xFF)]
    simp

theorem DefaultRoute.exists_reserved {net : IPNet} (default : DefaultRoute net) :
    ∃ ip, Reserved ip ∧ net.contains ip = true := by
  rcases default with every | every
  · exact ⟨.four 0x7F000001#32, Or.inl rfl, every _⟩
  · exact ⟨.sixteen 1#128, Or.inl rfl, every _ (by decide)⟩

theorem defaultRoute_of_ones {net : IPNet} (none_fixed : net.ones = 0) : DefaultRoute net := by
  have everything : ∀ {w : Nat} (block : Block w) (address : BitVec w), block.len = 0 →
      block.contains address = true := by
    intro w block address len_eq
    rw [Block.contains_iff]
    intro i high
    rw [BitVec.getLsbD_of_ge _ _ (by omega), BitVec.getLsbD_of_ge _ _ (by omega)]
  cases net with
  | four block =>
    left
    intro address
    rw [contains_four_iff]
    exact ⟨address, rfl, everything block address none_fixed⟩
  | sixteen block =>
    right
    intro address high
    have short : unmap block.base = none := by
      by_contra mapped
      obtain ⟨low, low_eq⟩ := Option.ne_none_iff_exists'.mp mapped
      have long := len_of_unmap low_eq
      have len_eq : block.len = 0 := none_fixed
      omega
    rw [contains_sixteen_iff short]
    exact ⟨high, everything block address none_fixed⟩

theorem isDangerousCIDR_iff (net : IPNet) :
    isDangerousCIDR net = true ↔
      DefaultRoute net ∨ ∃ ip, Reserved ip ∧ net.contains ip = true := by
  have overlap : overlapsAny net dangerousNets = true ↔
      ∃ ip, Reserved ip ∧ net.contains ip = true := by
    rw [overlapsAny_iff]
    constructor
    · rintro ⟨dangerous, mem, overlap⟩
      obtain ⟨ip, inside, reserved⟩ := (cidrsOverlap_iff_shares _ _).mp overlap
      exact ⟨ip, (exists_dangerous_iff ip).mp ⟨dangerous, mem, reserved⟩, inside⟩
    · rintro ⟨ip, reserved, inside⟩
      obtain ⟨dangerous, mem, contains⟩ := (exists_dangerous_iff ip).mpr reserved
      exact ⟨dangerous, mem, cidrsOverlap_of_contains inside contains⟩
  rw [isDangerousCIDR, Bool.or_eq_true, beq_iff_eq, overlap]
  constructor
  · exact Or.imp_left defaultRoute_of_ones
  · -- a default route that is not written with length zero contains a reserved address
    exact fun unsafe_net => .inr (unsafe_net.elim DefaultRoute.exists_reserved id)

/-- The network shares an address with a local CIDR that parses, or contains a reserved address. -/
def Touches (localCIDRs : List Str) (net : IPNet) : Prop :=
  (∃ cidr ∈ localCIDRs, ∃ own, parseNet cidr = some own ∧ Shares net own) ∨
    ∃ ip, Reserved ip ∧ net.contains ip = true

theorem overlapsAny_locals_iff (net : IPNet) (localCIDRs : List Str) :
    overlapsAny net (parseCIDRList localCIDRs) = true ↔
      ∃ cidr ∈ localCIDRs, ∃ own, parseNet cidr = some own ∧ Shares net own := by
  rw [overlapsAny_iff]
  constructor
  · rintro ⟨own, mem, overlap⟩
    obtain ⟨cidr, listed, parsed⟩ := mem_parseCIDRList.mp mem
    exact ⟨cidr, listed, own, parsed, (cidrsOverlap_iff_shares _ _).mp overlap⟩
  · rintro ⟨cidr, listed, own, parsed, shares⟩
    exact ⟨own, mem_parseCIDRList.mpr ⟨cidr, listed, parsed⟩,
      (cidrsOverlap_iff_shares _ _).mpr shares⟩

theorem routableText_of_parseNet {cidr : Str} {net : IPNet} (parsed : parseNet cidr = some net)
    (localCIDRs : List Str) :
    routableText (parseCIDRList localCIDRs) cidr = true ↔
      ¬ (DefaultRoute net ∨ Touches localCIDRs net) := by
  rw [routableText, parsed, Bool.not_eq_true', ← Bool.not_eq_true, Bool.or_eq_true,
    isDangerousCIDR_iff, overlapsAny_locals_iff, Touches, or_assoc]
  exact not_congr (or_congr_right or_comm)

/-- The planner splits the CIDRs of a peer into those that are safe to route and those that do not
parse, are default routes or share addresses with local or reserved ranges. -/
theorem partition_separates (desired localCIDRs : List Str) :
    (partition desired localCIDRs).1.Sublist desired ∧
      (partition desired localCIDRs).2.Sublist desired ∧
      ((partition desired localCIDRs).1 ++ (partition desired localCIDRs).2).Perm desired ∧
      (∀ cidr ∈ (partition desired localCIDRs).1, ∃ net, parseNet cidr = some net ∧
        ¬ DefaultRoute net ∧ ¬ Touches localCIDRs net) ∧
      ∀ cidr ∈ (partition desired localCIDRs).2, parseNet cidr = none ∨
        ∃ net, parseNet cidr = some net ∧ (DefaultRoute net ∨ Touches localCIDRs net) := by
  rw [partition_fst, partition_snd]
  refine ⟨filter_sublist, filter_sublist, filter_append_perm _ _, ?_, ?_⟩
  · intro cidr mem
    have routable := (mem_filter.mp mem).2
    cases parsed : parseNet cidr with
    | none => simp [routableText, parsed] at routable
    | some net =>
      have safe := (routableText_of_parseNet parsed localCIDRs).mp routable
      exact ⟨net, rfl, fun default => safe (.inl default), fun touches => safe (.inr touches)⟩
  · intro cidr mem
    have withheld := (mem_filter.mp mem).2
    cases parsed : parseNet cidr with
    | none => exact .inl rfl
    | some net =>
      refine .inr ⟨net, rfl, ?_⟩
      by_contra safe
      rw [(routableText_of_parseNet parsed localCIDRs).mpr safe] at withheld
      cases withheld

-- A mapped spelling of a loopback address is withheld like the dotted one.
example : partition ["10.1.0.0/16", "::ffff:127.0.0.1/128", "::/0", "10.2.0.0/16"]
    [str "10.2.4.0/24"] = ([str "10.1.0.0/16"], [str "::ffff:127.0.0.1/128", str "::/0",
      "10.2.0.0/16"]) := by
  decide +kernel

end DatawerxMesh.Topology
