import DatawerxMesh.Controllers.PeerRoutes
import DatawerxMesh.Topology.RemapAgreement

/-!
# Clusters that advertise their own ranges

A cluster with canonical, pairwise disjoint ranges, none of them dangerous, advertises these.  The
decisions of the planners are then statements about blocks.
-/

namespace DatawerxMesh.Mesh

open Go Addressing Program DatawerxMesh.Topology Controllers NatPlane Netfilter

/-- A cluster with its local ranges.  Canonical texts are the renderings of blocks. -/
structure Cluster where
  id : Str
  ranges : List (Block 32)
  safe : ∀ range ∈ ranges, isDangerousCIDR (.four range) = false
  disjoint : ranges.Pairwise Block.Disjoint

namespace Cluster

variable (cluster : Cluster)

/-- The texts of the ranges. -/
def locals : List Str := cluster.ranges.map blockText

/-- The agent of the cluster in a mesh with the given remap pool. -/
def agent (pool : Str) : MeshPeerReconciler where
  localCIDRs := cluster.locals
  clusterID := cluster.id
  remapPool := pool

/-- The range overlaps one of the cluster. -/
def Meets (range : Block 32) : Prop :=
  ∃ other ∈ cluster.ranges, range.overlaps other = true

theorem eq_of_contains {left right : Block 32} (in_left : left ∈ cluster.ranges)
    (in_right : right ∈ cluster.ranges) {address : BitVec 32}
    (left_contains : left.contains address = true)
    (right_contains : right.contains address = true) : left = right := by
  by_contra differ
  exact cluster.disjoint.forall in_left in_right differ address ⟨left_contains, right_contains⟩

theorem mem_locals {cluster : Cluster} {text : Str} :
    text ∈ cluster.locals ↔ ∃ range ∈ cluster.ranges, text = blockText range := by
  simp only [locals, List.mem_map, eq_comm]

theorem plain : PlainCIDRs cluster.locals := by
  intro text mem
  obtain ⟨range, in_ranges, rfl⟩ := mem_locals.mp mem
  refine ⟨⟨range, parseNet_blockText range⟩, ?_⟩
  rw [dangerousText, parseNet_blockText]
  exact cluster.safe range in_ranges

end Cluster

/-- A MeshPeer with a key that advertises exactly the local ranges of a cluster. -/
structure Advertises (peer : MeshPeer) (cluster : Cluster) : Prop where
  clusterID_eq : peer.spec.clusterID = cluster.id
  keyed : peer.spec.publicKey ≠ []
  exactly : ∀ text, text ∈ peer.spec.allCIDRs ↔ text ∈ cluster.locals

section Planning

variable {pool : Str} {here there : Cluster} {peer : MeshPeer} (advertises : Advertises peer there)

include advertises

theorem Advertises.plain : PlainCIDRs peer.spec.allCIDRs :=
  fun text mem => there.plain text ((advertises.exactly text).mp mem)

theorem Advertises.remapConflicts_eq :
    (here.agent pool).remap.remapConflicts peer = (here.agent pool).conflicts peer :=
  MeshPeerReconciler.remapConflicts_of_safe fun cidr mem => (advertises.plain cidr mem).2

theorem overlapping_iff {text : Str} {range : Block 32} :
    Overlapping peer.spec.allCIDRs here.locals text range ↔
      range ∈ there.ranges ∧ text = blockText range ∧ here.Meets range := by
  constructor
  · rintro ⟨mem, parsed, other, other_mem, otherBlock, other_parsed, overlap⟩
    obtain ⟨advertised, in_ranges, rfl⟩ :=
      Cluster.mem_locals.mp ((advertises.exactly text).mp mem)
    obtain ⟨localRange, in_locals, rfl⟩ := Cluster.mem_locals.mp other_mem
    rw [parseNet_blockText, Option.some.injEq, IPNet.four.injEq] at parsed other_parsed
    subst parsed other_parsed
    exact ⟨in_ranges, rfl, localRange, in_locals, overlap⟩
  · rintro ⟨in_ranges, rfl, other, other_mem, overlap⟩
    exact ⟨(advertises.exactly _).mpr (Cluster.mem_locals.mpr ⟨range, in_ranges, rfl⟩),
      parseNet_blockText range, blockText other, Cluster.mem_locals.mpr ⟨other, other_mem, rfl⟩,
      other, parseNet_blockText other, overlap⟩

theorem mem_conflicts {text : Str} :
    text ∈ (here.agent pool).conflicts peer ↔
      ∃ range ∈ there.ranges, text = blockText range ∧ here.Meets range := by
  refine (mem_conflicts_of_plain advertises.plain here.plain).trans ?_
  exact exists_congr fun range => overlapping_iff advertises

theorem mem_routable {text : Str} :
    text ∈ (here.agent pool).routable peer ↔
      ∃ range ∈ there.ranges, text = blockText range ∧ ¬ here.Meets range := by
  have routable_iff : text ∈ (here.agent pool).routable peer ↔
      text ∈ peer.spec.allCIDRs ∧ text ∉ (here.agent pool).conflicts peer := by
    rw [MeshPeerReconciler.routable, MeshPeerReconciler.conflicts, partition_fst, partition_snd]
    by_cases mem : text ∈ peer.spec.allCIDRs <;> simp [mem]
  rw [routable_iff, advertises.exactly, mem_conflicts advertises, Cluster.mem_locals]
  constructor
  · rintro ⟨⟨range, in_ranges, rfl⟩, apart⟩
    exact ⟨range, in_ranges, rfl, fun meets => apart ⟨range, in_ranges, rfl, meets⟩⟩
  · rintro ⟨range, in_ranges, rfl, apart⟩
    refine ⟨⟨range, in_ranges, rfl⟩, ?_⟩
    rintro ⟨other, -, same, meets⟩
    rw [← blockText_injective same] at meets
    exact apart meets

theorem mem_allowedIPs {allowedIPs : List Str}
    (programmed : (here.agent pool).Programs peer allowedIPs) {text : Str} :
    text ∈ allowedIPs ↔
      (∃ range ∈ there.ranges, text = blockText range ∧ ¬ here.Meets range) ∨
      ∃ range ∈ there.ranges, here.Meets range ∧
        virtualCIDR pool there.id (blockText range) = .ok text := by
  rw [MeshPeerReconciler.mem_allowedIPs programmed, mem_routable advertises,
    ← advertises.clusterID_eq]
  refine or_congr_right ?_
  constructor
  · rintro ⟨cidr, conflict, allocated⟩
    obtain ⟨range, in_ranges, rfl, meets⟩ := (mem_conflicts advertises).mp conflict
    exact ⟨range, in_ranges, meets, allocated⟩
  · rintro ⟨range, in_ranges, meets, allocated⟩
    exact ⟨blockText range, (mem_conflicts advertises).mpr ⟨range, in_ranges, rfl, meets⟩,
      allocated⟩

theorem local_mem_peerPlacements {real : Str} :
    .local real ∈ (here.agent pool).remap.peerPlacements peer ↔
      ∃ range ∈ here.ranges, real = blockText range ∧ there.Meets range := by
  rw [RemapReconciler.mem_peerPlacements_local, and_iff_right advertises.keyed,
    advertises.remapConflicts_eq]
  constructor
  · rintro ⟨cidr, conflict, remote, parsed, localNet, in_locals, overlap, rfl⟩
    obtain ⟨remoteRange, remote_mem, rfl, -⟩ := (mem_conflicts advertises).mp conflict
    rw [parseNet_blockText, Option.some.injEq] at parsed
    subst parsed
    obtain ⟨text, text_mem, localBlock, local_parsed, rfl⟩ :=
      (mem_parse_of_plain here.plain).mp in_locals
    obtain ⟨localRange, local_mem, rfl⟩ := Cluster.mem_locals.mp text_mem
    rw [parseNet_blockText, Option.some.injEq, IPNet.four.injEq] at local_parsed
    subst local_parsed
    rw [cidrsOverlap_four, Block.overlaps_comm] at overlap
    exact ⟨localRange, local_mem, IPNet.string_of_block4 rfl, remoteRange, remote_mem, overlap⟩
  · rintro ⟨range, in_ranges, rfl, remoteRange, remote_mem, overlap⟩
    rw [Block.overlaps_comm] at overlap
    refine ⟨blockText remoteRange,
      (mem_conflicts advertises).mpr ⟨remoteRange, remote_mem, rfl, range, in_ranges, overlap⟩,
      .four remoteRange, parseNet_blockText remoteRange, .four range, ?_, ?_,
      (IPNet.string_of_block4 rfl).symm⟩
    · exact mem_parseCIDRList.mpr ⟨blockText range, Cluster.mem_locals.mpr ⟨range, in_ranges, rfl⟩,
        parseNet_blockText range⟩
    · rw [cidrsOverlap_four, overlap]

end Planning

section Entries

variable {pool : Str} {here : Cluster} {peers : List MeshPeer} {entries : List RemapEntry}

/-- The peers advertise the other clusters. -/
def AllAdvertise (peers : List MeshPeer) (others : Cluster → Prop) : Prop :=
  (∀ peer ∈ peers, ∃ there, others there ∧ Advertises peer there) ∧
  ∀ there, others there → ∃ peer ∈ peers, Advertises peer there

variable {others : Cluster → Prop} (advertise : AllAdvertise peers others)
  (built : (here.agent pool).remap.buildEntries peers = .ok entries)

include advertise built

theorem mem_entries {entry : RemapEntry} :
    entry ∈ entries ↔ ∃ range ∈ here.ranges, (∃ there, others there ∧ there.Meets range) ∧
      entry.real = blockText range ∧ virtualCIDR pool here.id entry.real = .ok entry.virtual := by
  rw [RemapReconciler.mem_buildEntries built]
  constructor
  · rintro ⟨peer, in_peers, placed, allocated⟩
    obtain ⟨there, is_other, advertises⟩ := advertise.1 peer in_peers
    obtain ⟨range, in_ranges, real_eq, meets⟩ := (local_mem_peerPlacements advertises).mp placed
    exact ⟨range, in_ranges, ⟨there, is_other, meets⟩, real_eq,
      Placement.allocate_eq_ok.mp allocated⟩
  · rintro ⟨range, in_ranges, ⟨there, is_other, meets⟩, real_eq, allocated⟩
    obtain ⟨peer, in_peers, advertises⟩ := advertise.2 there is_other
    exact ⟨peer, in_peers, (local_mem_peerPlacements advertises).mpr
      ⟨range, in_ranges, real_eq, meets⟩, Placement.allocate_eq_ok.mpr allocated⟩

theorem exists_entry {range : Block 32}
    (in_ranges : range ∈ here.ranges) {there : Cluster} (is_other : others there)
    (meets : there.Meets range) :
    ∃ poolBlock virtual, parseNet pool = some (.four poolBlock) ∧
      presentedBlock poolBlock here.id (blockText range) = some virtual ∧
      virtual.len = range.len ∧ ⟨blockText range, blockText virtual⟩ ∈ entries := by
  obtain ⟨peer, in_peers, advertises⟩ := advertise.2 there is_other
  obtain ⟨placeable, -⟩ := (RemapReconciler.buildEntries_ok_iff peers).mp ⟨entries, built⟩
  have placed : .local (blockText range) ∈ (here.agent pool).remap.peerPlacements peer :=
    (local_mem_peerPlacements advertises).mpr ⟨range, in_ranges, rfl, meets⟩
  obtain ⟨poolBlock, pool_eq⟩ :=
    RemapReconciler.dotted_of_placeable (placeable peer in_peers) placed
  obtain ⟨text, allocated⟩ := (placeable peer in_peers).1 _ placed
  have virtual_ok : virtualCIDR pool here.id (blockText range) = .ok text :=
    Placement.allocate_eq_ok.mp allocated
  obtain ⟨virtual, presented, rfl⟩ := (virtualCIDR_eq_ok pool_eq).mp virtual_ok
  refine ⟨poolBlock, virtual, pool_eq, presented, ?_, ?_⟩
  · obtain ⟨parsedBlock, parsed, fits, rfl⟩ := presentedBlock_eq_some.mp presented
    rw [parseNet_blockText] at parsed
    rw [virtualBlock_len, IPNet.four.inj (Option.some.inj parsed)]
  · exact (mem_entries advertise built).mpr
      ⟨range, in_ranges, ⟨there, is_other, meets⟩, rfl, virtual_ok⟩

end Entries

end DatawerxMesh.Mesh
