import DatawerxMesh.Controllers.RemapPool

/-!
# Presented local ranges

Every local IPv4 range that overlaps a safe CIDR of a peer with a key is presented under the pool
block that its text selects.
-/

namespace DatawerxMesh.Controllers

open Go Addressing Program DatawerxMesh.Topology NatPlane Netfilter

namespace RemapReconciler

variable (r : RemapReconciler)

/-- A local range, given by its IPv4 block, is presented under a block of the pool. -/
def Presented (peers : List MeshPeer) (real virtual : Block 32) : Prop :=
  (∃ poolBlock, parseNet r.remapPool = some (.four poolBlock) ∧
    presentedBlock poolBlock r.clusterID (blockText real) = some virtual) ∧
  ∃ peer ∈ peers, peer.spec.publicKey ≠ [] ∧ ∃ cidr ∈ peer.spec.allCIDRs, ∃ remote,
    parseNet cidr = some remote ∧ isDangerousCIDR remote = false ∧
    ∃ localNet ∈ parseCIDRList r.localCIDRs, cidrsOverlap remote localNet = true ∧
      localNet.block4 = some real

/-- The presented range around an address whose virtual, then real text is least. -/
def FirstPresented (peers : List MeshPeer) (address : BitVec 32) (real virtual : Block 32) : Prop :=
  r.Presented peers real virtual ∧ real.contains address = true ∧
    ∀ other image, r.Presented peers other image → other.contains address = true →
      lessEntry ⟨blockText other, blockText image⟩ ⟨blockText real, blockText virtual⟩ = false

variable {r} {peers : List MeshPeer}

theorem Presented.same_len {real virtual : Block 32}
    (presented : r.Presented peers real virtual) : real.len = virtual.len := by
  obtain ⟨⟨poolBlock, -, presented⟩, -⟩ := presented
  obtain ⟨block, parsed, fits, rfl⟩ := presentedBlock_eq_some.mp presented
  rw [parseNet_blockText] at parsed
  cases parsed
  rw [virtualBlock_len]

theorem mem_remapConflicts_iff {peer : MeshPeer} {cidr : Str} {remote : IPNet}
    (parsed : parseNet cidr = some remote) :
    cidr ∈ r.remapConflicts peer ↔
      cidr ∈ peer.spec.allCIDRs ∧ isDangerousCIDR remote = false ∧
        ∃ localNet ∈ parseCIDRList r.localCIDRs, cidrsOverlap remote localNet = true := by
  rw [mem_remapConflicts, dangerousText, parsed, Option.any_some]
  constructor
  · rintro ⟨conflict, safe⟩
    obtain ⟨in_spec, overlap⟩ := (mem_conflicts_iff parsed safe).mp conflict
    exact ⟨in_spec, safe, overlap⟩
  · rintro ⟨in_spec, safe, overlap⟩
    exact ⟨(mem_conflicts_iff parsed safe).mpr ⟨in_spec, overlap⟩, safe⟩

theorem block4_of_placed {peer : MeshPeer} {cidr : Str} {remote localNet : IPNet}
    {poolBlock : Block 32} (pool_eq : parseNet r.remapPool = some (.four poolBlock))
    (placeable : Placeable r.remapPool r.clusterID peer.spec.clusterID (r.peerPlacements peer))
    (placed : .peer cidr ∈ r.peerPlacements peer) (parsed : parseNet cidr = some remote)
    (overlap : cidrsOverlap remote localNet = true) : ∃ real, localNet.block4 = some real := by
  obtain ⟨routed, routed_ok⟩ := placeable.1 _ placed
  obtain ⟨block, presented, -⟩ := (allocates_iff pool_eq).mp routed_ok
  obtain ⟨remoteBlock, remote_eq, -⟩ := presentedBlock_eq_some.mp presented
  obtain rfl := Option.some.inj (parsed.symm.trans remote_eq)
  exact Option.isSome_iff_exists.mp ((block4_of_cidrsOverlap overlap).symm.trans rfl)

variable {entries : List RemapEntry} (built : r.buildEntries peers = .ok entries)

include built

theorem mem_entries_iff {entry : RemapEntry} :
    entry ∈ entries ↔ ∃ real virtual, r.Presented peers real virtual ∧
      entry = ⟨blockText real, blockText virtual⟩ := by
  obtain ⟨placeable, -⟩ := (buildEntries_ok_iff peers).mp ⟨entries, built⟩
  rw [mem_buildEntries built]
  constructor
  · rintro ⟨peer, in_peers, placed, allocated⟩
    obtain ⟨poolBlock, pool_eq⟩ := dotted_of_placeable (placeable peer in_peers) placed
    obtain ⟨virtual, presented, virtual_eq⟩ := (allocates_iff pool_eq).mp allocated
    obtain ⟨keyed, cidr, conflict, remote, parsed, localNet, in_locals, overlap, real_eq⟩ :=
      mem_peerPlacements_local.mp placed
    obtain ⟨in_spec, safe, -⟩ := (mem_remapConflicts_iff parsed).mp conflict
    have peer_placed : .peer cidr ∈ r.peerPlacements peer :=
      mem_peerPlacements_peer.mpr ⟨keyed, conflict, by rw [parsed]; rfl⟩
    obtain ⟨real, view⟩ :=
      block4_of_placed pool_eq (placeable peer in_peers) peer_placed parsed overlap
    obtain ⟨entryReal, entryVirtual⟩ := entry
    obtain rfl : entryReal = blockText real := real_eq.trans (IPNet.string_of_block4 view)
    obtain rfl : entryVirtual = blockText virtual := virtual_eq
    exact ⟨real, virtual, ⟨⟨poolBlock, pool_eq, presented⟩, peer, in_peers, keyed, cidr, in_spec,
      remote, parsed, safe, localNet, in_locals, overlap, view⟩, rfl⟩
  · rintro ⟨real, virtual, ⟨⟨poolBlock, pool_eq, presented⟩, peer, in_peers, keyed, cidr, in_spec,
      remote, parsed, safe, localNet, in_locals, overlap, view⟩, rfl⟩
    have conflict : cidr ∈ r.remapConflicts peer :=
      (mem_remapConflicts_iff parsed).mpr ⟨in_spec, safe, localNet, in_locals, overlap⟩
    exact ⟨peer, in_peers, mem_peerPlacements_local.mpr ⟨keyed, cidr, conflict, remote, parsed,
      localNet, in_locals, overlap, (IPNet.string_of_block4 view).symm⟩,
      (allocates_iff pool_eq).mpr ⟨virtual, presented, rfl⟩⟩

theorem firstMatch_iff_presented {address image : BitVec 32} :
    firstMatch (postPairs entries) address = some image ↔
      ∃ real virtual, r.FirstPresented peers address real virtual ∧
        image = virtual.renumber address := by
  have shown : ∀ {real virtual}, r.Presented peers real virtual →
      ⟨blockText real, blockText virtual⟩ ∈ remapOrder entries := fun presented =>
    mem_remapOrder.mpr ⟨(mem_entries_iff built).mpr ⟨_, _, presented, rfl⟩, blockText_ne_nil _,
      blockText_ne_nil _⟩
  rw [firstMatch_post_eq_some]
  constructor
  · rintro ⟨entry, mem, matched, least, rfl⟩
    obtain ⟨real, virtual, presented, rfl⟩ :=
      (mem_entries_iff built).mp (mem_remapOrder.mp mem).1
    rw [ipv4_member_blockText] at matched
    refine ⟨real, virtual, ⟨presented, matched, fun other image other_presented contains => ?_⟩,
      ipv4_netmap_blockText virtual address⟩
    exact least _ (shown other_presented) ((ipv4_member_blockText other address).trans contains)
  · rintro ⟨real, virtual, ⟨presented, contains, least⟩, rfl⟩
    refine ⟨_, shown presented, (ipv4_member_blockText real address).trans contains,
      fun other mem matched => ?_, (ipv4_netmap_blockText virtual address).symm⟩
    obtain ⟨otherReal, otherVirtual, other_presented, rfl⟩ :=
      (mem_entries_iff built).mp (mem_remapOrder.mp mem).1
    exact least _ _ other_presented ((ipv4_member_blockText otherReal address).symm.trans matched)

theorem unmoved_iff (address : BitVec 32) :
    (∀ image, firstMatch (postPairs entries) address = some image → image = address) ↔
      ∀ real virtual, r.FirstPresented peers address real virtual → virtual = real := by
  simp only [firstMatch_iff_presented built]
  constructor
  · intro unmoved real virtual first
    exact (Block.renumber_eq_self_iff first.1.same_len first.2.1).mp
      (unmoved _ ⟨real, virtual, first, rfl⟩)
  · rintro same image ⟨real, virtual, first, rfl⟩
    exact (Block.renumber_eq_self_iff first.1.same_len first.2.1).mpr (same real virtual first)

end RemapReconciler

end DatawerxMesh.Controllers
