import DatawerxMesh.Controllers.RemapClaims

/-!
# Blocks of the remap pool

With a dotted pool, whether a run panics and whether the claimed ranges are disjoint is a matter of
the pool blocks that the hashes select.
-/

namespace DatawerxMesh.Controllers

open Go Addressing Program Ownership DatawerxMesh.Topology NatPlane Netfilter List RemapReconciler

namespace RemapReconciler

variable (r : RemapReconciler)

/-- The virtual block of a placement. -/
def placedBlock (poolBlock : Block 32) (peer : MeshPeer) (placement : Placement) :
    Option (Block 32) :=
  placement.block poolBlock r.clusterID peer.spec.clusterID

/-- The pool has separate blocks for the ranges of each peer, and peers that need one block claim it
for the same source. -/
def SeparatelyClaimed (poolBlock : Block 32) (peers : List MeshPeer) : Prop :=
  (∀ peer ∈ peers, Separated poolBlock r.clusterID peer.spec.clusterID (r.peerPlacements peer)) ∧
  ∀ left ∈ peers, ∀ first ∈ r.peerPlacements left, ∀ right ∈ peers,
    ∀ second ∈ r.peerPlacements right,
      r.placedBlock poolBlock left first = r.placedBlock poolBlock right second →
        claimant left.spec.clusterID first = claimant right.spec.clusterID second

variable {r}

theorem allocates_iff {poolBlock : Block 32}
    (pool_eq : parseNet r.remapPool = some (.four poolBlock))
    {peer : MeshPeer} {placement : Placement} {virtual : Str} :
    r.allocates peer placement virtual ↔
      ∃ block, r.placedBlock poolBlock peer placement = some block ∧ virtual = blockText block :=
  Placement.allocate_eq_ok.trans (virtualCIDR_eq_ok pool_eq)

theorem separatelyClaimed_iff {poolBlock : Block 32}
    (pool_eq : parseNet r.remapPool = some (.four poolBlock)) (peers : List MeshPeer) :
    ((∀ peer ∈ peers,
        Placeable r.remapPool r.clusterID peer.spec.clusterID (r.peerPlacements peer)) ∧
      r.SingleOwner peers) ↔ r.SeparatelyClaimed poolBlock peers := by
  simp only [placeable_iff_separated pool_eq, SeparatelyClaimed]
  refine and_congr_right fun separated => ?_
  constructor
  · intro single left in_left first in_first right in_right second in_second same
    obtain ⟨block, found⟩ := Option.isSome_iff_exists.mp ((separated left in_left).1 first in_first)
    refine single (blockText block) _ _ ?_ ?_
    · exact ⟨left, in_left, first, in_first, (allocates_iff pool_eq).mpr ⟨block, found, rfl⟩, rfl⟩
    · exact ⟨right, in_right, second, in_second,
        (allocates_iff pool_eq).mpr ⟨block, same ▸ found, rfl⟩, rfl⟩
  · rintro agree virtual _ _ ⟨left, in_left, first, in_first, first_ok, rfl⟩
      ⟨right, in_right, second, in_second, second_ok, rfl⟩
    obtain ⟨firstBlock, first_eq, rfl⟩ := (allocates_iff pool_eq).mp first_ok
    obtain ⟨secondBlock, second_eq, same⟩ := (allocates_iff pool_eq).mp second_ok
    apply agree left in_left first in_first right in_right second in_second
    rw [first_eq, second_eq, blockText_injective same]

/-- The reconciler comes to an IPv4-mapped CIDR: the pool is dotted and has separate blocks for all
that is claimed before. -/
def EntriesReachMapped (r : RemapReconciler) (peers : List MeshPeer) : Prop :=
  ∃ poolBlock before peer after, parseNet r.remapPool = some (.four poolBlock) ∧
    peers = before ++ peer :: after ∧ r.SeparatelyClaimed poolBlock before ∧
    peer.spec.publicKey ≠ [] ∧
    ReachesMapped r.remapPool r.clusterID r.localCIDRs peer.spec.clusterID (r.remapConflicts peer)

theorem peerPlan_eq_panic {peer : MeshPeer} :
    r.peerPlan peer = .panic ↔ peer.spec.publicKey ≠ [] ∧
      ReachesMapped r.remapPool r.clusterID r.localCIDRs peer.spec.clusterID
        (r.remapConflicts peer) := by
  rw [peerPlan]
  split
  · rename_i keyless
    simp [keyless]
  · rename_i keyed
    rw [planRemap_eq_panic]
    exact (and_iff_right keyed).symm

theorem buildEntries_eq_panic {peers : List MeshPeer} :
    r.buildEntries peers = .panic ↔ r.EntriesReachMapped peers := by
  rw [buildEntries_eq_panic_iff]
  simp only [peerPlan_eq_panic]
  constructor
  · rintro ⟨before, peer, after, split, passed, keyed, reaches⟩
    obtain ⟨poolBlock, -, -, -, pool_eq, -⟩ := id reaches
    exact ⟨poolBlock, before, peer, after, pool_eq, split,
      (separatelyClaimed_iff pool_eq before).mp passed, keyed, reaches⟩
  · rintro ⟨poolBlock, before, peer, after, pool_eq, split, separate, keyed, reaches⟩
    exact ⟨before, peer, after, split, (separatelyClaimed_iff pool_eq before).mpr separate, keyed,
      reaches⟩

end RemapReconciler

/-- No planner panics, except on an IPv4-mapped CIDR that it reaches with a dotted pool. -/
theorem remap_planning_never_panics_iff (pool clusterID real : Str)
    (localCIDRs conflicts : List Str)
    (peerClusterID : Str) (r : RemapReconciler) (peers : List MeshPeer) :
    (virtualCIDR pool clusterID real ≠ .panic ↔ ¬ (DottedCIDR pool ∧ MappedCIDR real)) ∧
    (planRemap pool clusterID localCIDRs peerClusterID conflicts ≠ .panic ↔
      ¬ ReachesMapped pool clusterID localCIDRs peerClusterID conflicts) ∧
    (r.buildEntries peers ≠ .panic ↔ ¬ r.EntriesReachMapped peers) :=
  ⟨not_congr virtualCIDR_eq_panic, not_congr planRemap_eq_panic, not_congr buildEntries_eq_panic⟩

/-- A cluster that uses 10.244.0.0/16 and the default pool. -/
def clusterA : RemapReconciler where
  clusterID := "cluster-a"
  localCIDRs := ["10.244.0.0/16"]
  remapPool := defaultRemapPool

/-- A peer with a key that advertises the given pod ranges. -/
def peerOf (clusterID : Str) (podCIDRs : List Str) : MeshPeer where
  namespace_ := "datawerx"
  name := clusterID
  generation := 1
  spec := { clusterID, publicKey := "key", endpoint := [], podCIDRs, serviceCIDRs := [] }
  status := { phase := .unset, lastHandshakeTime := 0, message := [], observedGeneration := 0 }

/-- One advertised CIDR in IPv4-mapped notation crashes all three planners. -/
theorem remap_planning_panics_on_mapped :
    virtualCIDR defaultRemapPool "cluster-b" "::ffff:10.244.0.0/112" = .panic ∧
    planRemap defaultRemapPool "cluster-a" ["10.244.0.0/16"] "cluster-b"
      ["::ffff:10.244.0.0/112"] = .panic ∧
    clusterA.buildEntries [peerOf "cluster-b" ["::ffff:10.244.0.0/112"]] = .panic := by
  decide +kernel

/-- A range that is given a virtual range. -/
inductive RemapSource where
  | peerCIDR (clusterID cidr : Str)
  | localRange (real : Str)
  deriving DecidableEq

namespace RemapReconciler

variable {peer : MeshPeer} {peers : List MeshPeer}

/-- The claimed virtual ranges, one for each source: those routed for a peer and those of the
entries. -/
def ClaimedRange (r : RemapReconciler) (peers : List MeshPeer) (entries : List RemapEntry)
    (virtual : Str) : RemapSource → Prop
  | .peerCIDR clusterID cidr =>
    ∃ peer ∈ peers, ∃ plan, peer.spec.publicKey ≠ [] ∧ peer.spec.clusterID = clusterID ∧
      cidr ∈ r.remapConflicts peer ∧ r.peerPlan peer = .ok plan ∧
      virtual ∈ plan.routeVirtual ∧ virtualCIDR r.remapPool clusterID cidr = .ok virtual
  | .localRange real => ⟨real, virtual⟩ ∈ entries

/-- No address lies in the virtual ranges claimed for two sources. -/
def RangesDisjoint (r : RemapReconciler) (peers : List MeshPeer) (entries : List RemapEntry) :
    Prop :=
  ∀ left leftVirtual right rightVirtual, r.ClaimedRange peers entries leftVirtual left →
    r.ClaimedRange peers entries rightVirtual right → left ≠ right →
    ∀ address, ¬ (ipv4.member leftVirtual address = true ∧ ipv4.member rightVirtual address = true)

/-- The cluster, the text and the block of a range that the planners place. -/
def Placed (r : RemapReconciler) (peers : List MeshPeer) (clusterID text : Str) (real : Block 32) :
    Prop :=
  ∃ peer ∈ peers, ∃ placement ∈ r.peerPlacements peer,
    placement.key r.clusterID peer.spec.clusterID = (clusterID, text) ∧
    parseNet text = some (.four real)

/-- The hash index of the smaller range lies inside the block selected for the larger one. -/
def NestedIndices (r : RemapReconciler) (peers : List MeshPeer) : Prop :=
  ∃ poolBlock outerID outerText outer innerID innerText inner,
    parseNet r.remapPool = some (.four poolBlock) ∧
    r.Placed peers outerID outerText outer ∧ r.Placed peers innerID innerText inner ∧
    outer.len < inner.len ∧
    blockIndex poolBlock innerID innerText inner.len / 2 ^ (inner.len - outer.len) =
      blockIndex poolBlock outerID outerText outer.len

variable {r : RemapReconciler}

theorem mem_remapConflicts {cidr : Str} :
    cidr ∈ r.remapConflicts peer ↔
      cidr ∈ (partition peer.spec.allCIDRs r.localCIDRs).2 ∧ dangerousText cidr = false := by
  rw [remapConflicts, excludeDangerous_eq, mem_filter, Bool.not_eq_true']

theorem overlap_of_remapConflict {cidr : Str} {remote : IPNet}
    (conflict : cidr ∈ r.remapConflicts peer) (parsed : parseNet cidr = some remote) :
    ∃ localNet ∈ parseCIDRList r.localCIDRs, cidrsOverlap remote localNet = true := by
  obtain ⟨in_conflicts, safe⟩ := mem_remapConflicts.mp conflict
  rw [dangerousText, parsed] at safe
  exact ((mem_conflicts_iff parsed safe).mp in_conflicts).2

theorem mem_peerPlacements_peer {cidr : Str} :
    .peer cidr ∈ r.peerPlacements peer ↔
      peer.spec.publicKey ≠ [] ∧ cidr ∈ r.remapConflicts peer ∧ (parseNet cidr).isSome := by
  rw [peerPlacements]
  split
  · rename_i keyless
    simp [keyless]
  · rename_i keyed
    rw [and_iff_right keyed, mem_placements_peer]

theorem mem_peerPlacements_local {real : Str} :
    .local real ∈ r.peerPlacements peer ↔
      peer.spec.publicKey ≠ [] ∧ ∃ cidr ∈ r.remapConflicts peer, ∃ remote,
        parseNet cidr = some remote ∧ ∃ localNet ∈ parseCIDRList r.localCIDRs,
          cidrsOverlap remote localNet = true ∧ real = localNet.string := by
  rw [peerPlacements]
  split
  · rename_i keyless
    simp [keyless]
  · rename_i keyed
    rw [and_iff_right keyed, mem_placements_local]

theorem dotted_of_placeable
    (placeable : Placeable r.remapPool r.clusterID peer.spec.clusterID (r.peerPlacements peer))
    {placement : Placement} (placed : placement ∈ r.peerPlacements peer) :
    DottedCIDR r.remapPool := by
  obtain ⟨keyed, cidr, conflict, remote, parsed⟩ : peer.spec.publicKey ≠ [] ∧
      ∃ cidr ∈ r.remapConflicts peer, ∃ remote, parseNet cidr = some remote := by
    cases placement with
    | peer cidr =>
      obtain ⟨keyed, conflict, parses⟩ := mem_peerPlacements_peer.mp placed
      exact ⟨keyed, cidr, conflict, Option.isSome_iff_exists.mp parses⟩
    | «local» real =>
      obtain ⟨keyed, cidr, conflict, remote, parsed, -⟩ := mem_peerPlacements_local.mp placed
      exact ⟨keyed, cidr, conflict, remote, parsed⟩
  obtain ⟨localNet, in_locals, overlap⟩ := overlap_of_remapConflict conflict parsed
  obtain ⟨routed, routed_ok⟩ := placeable.1 (.peer cidr)
    (mem_peerPlacements_peer.mpr ⟨keyed, conflict, by rw [parsed]; rfl⟩)
  obtain ⟨presented, presented_ok⟩ := placeable.1 (.local localNet.string)
    (mem_peerPlacements_local.mpr
      ⟨keyed, cidr, conflict, remote, parsed, localNet, in_locals, overlap, rfl⟩)
  exact dotted_of_overlapping_pair parsed overlap (Placement.allocate_eq_ok.mp routed_ok)
    (Placement.allocate_eq_ok.mp presented_ok)

/-- The source of a placed range. -/
def sourceOf (clusterID : Str) : Placement → RemapSource
  | .peer cidr => .peerCIDR clusterID cidr
  | .local real => .localRange real

/-- The cluster and the text that are hashed for a source. -/
def sourceKey (r : RemapReconciler) : RemapSource → Str × Str
  | .peerCIDR clusterID cidr => (clusterID, cidr)
  | .localRange real => (r.clusterID, real)

theorem sourceKey_sourceOf (clusterID : Str) (placement : Placement) :
    r.sourceKey (sourceOf clusterID placement) = placement.key r.clusterID clusterID := by
  cases placement <;> rfl

theorem claimedRange_iff {entries : List RemapEntry} (built : r.buildEntries peers = .ok entries)
    (virtual : Str) (source : RemapSource) :
    r.ClaimedRange peers entries virtual source ↔
      ∃ peer ∈ peers, ∃ placement ∈ r.peerPlacements peer, r.allocates peer placement virtual ∧
        source = sourceOf peer.spec.clusterID placement := by
  obtain ⟨placeable, -⟩ := (buildEntries_ok_iff peers).mp ⟨entries, built⟩
  cases source with
  | peerCIDR clusterID cidr =>
    constructor
    · rintro ⟨peer, in_peers, plan, keyed, rfl, conflict, planned, -, allocated⟩
      refine ⟨peer, in_peers, .peer cidr, mem_peerPlacements_peer.mpr ⟨keyed, conflict, ?_⟩,
        Placement.allocate_eq_ok.mpr allocated, rfl⟩
      exact isSome_of_virtualCIDR_ok allocated
    · rintro ⟨peer, in_peers, placement, placed, allocated, source_eq⟩
      cases placement with
      | «local» real => cases source_eq
      | peer other =>
        obtain ⟨rfl, rfl⟩ := RemapSource.peerCIDR.inj source_eq
        obtain ⟨keyed, conflict, -⟩ := mem_peerPlacements_peer.mp placed
        obtain ⟨plan, planned⟩ := exists_peerPlan_iff.mpr (placeable peer in_peers)
        exact ⟨peer, in_peers, plan, keyed, rfl, conflict, planned,
          ((peerPlan_eq_ok planned).2.1 virtual).mpr ⟨cidr, placed, allocated⟩,
          Placement.allocate_eq_ok.mp allocated⟩
  | localRange real =>
    refine (mem_buildEntries built ⟨real, virtual⟩).trans ?_
    constructor
    · rintro ⟨peer, in_peers, placed, allocated⟩
      exact ⟨peer, in_peers, .local real, placed, allocated, rfl⟩
    · rintro ⟨peer, in_peers, placement, placed, allocated, source_eq⟩
      cases placement with
      | peer cidr => cases source_eq
      | «local» other =>
        obtain rfl := RemapSource.localRange.inj source_eq
        exact ⟨peer, in_peers, placed, allocated⟩

theorem source_unique {entries : List RemapEntry}
    (distinct : (peers.map fun peer => peer.spec.clusterID).Nodup)
    (built : r.buildEntries peers = .ok entries) {virtual : Str} {left right : RemapSource}
    (left_claimed : r.ClaimedRange peers entries virtual left)
    (right_claimed : r.ClaimedRange peers entries virtual right) : left = right := by
  obtain ⟨placeable, single⟩ := (buildEntries_ok_iff peers).mp ⟨entries, built⟩
  obtain ⟨leftPeer, in_left, first, first_placed, first_ok, rfl⟩ :=
    (claimedRange_iff built virtual left).mp left_claimed
  obtain ⟨rightPeer, in_right, second, second_placed, second_ok, rfl⟩ :=
    (claimedRange_iff built virtual right).mp right_claimed
  have same := single virtual _ _ ⟨leftPeer, in_left, first, first_placed, first_ok, rfl⟩
    ⟨rightPeer, in_right, second, second_placed, second_ok, rfl⟩
  cases first with
  | peer firstCidr =>
    cases second with
    | peer secondCidr =>
      have same_id : leftPeer.spec.clusterID = rightPeer.spec.clusterID := by
        simp only [claimant, routeSource] at same
        exact append_cancel_left (append_cancel_right same)
      obtain rfl := inj_on_of_nodup_map distinct in_left in_right same_id
      rw [(placeable leftPeer in_left).2 _ first_placed _ second_placed virtual first_ok second_ok]
    | «local» real =>
      have heads := congrArg List.head? same
      cases heads
  | «local» firstReal =>
    cases second with
    | peer cidr =>
      have heads := congrArg List.head? same
      cases heads
    | «local» secondReal =>
      simp only [claimant, realSource] at same
      rw [sourceOf, sourceOf, append_cancel_left same]

section Blocks

variable {peers : List MeshPeer} {entries : List RemapEntry}
  (built : r.buildEntries peers = .ok entries)

include built

theorem dotted_of_claimed {virtual : Str} {source : RemapSource}
    (claimed : r.ClaimedRange peers entries virtual source) : DottedCIDR r.remapPool := by
  obtain ⟨placeable, -⟩ := (buildEntries_ok_iff peers).mp ⟨entries, built⟩
  obtain ⟨peer, in_peers, placement, placed, -⟩ := (claimedRange_iff built _ _).mp claimed
  exact dotted_of_placeable (placeable peer in_peers) placed

variable {poolBlock : Block 32} (pool_eq : parseNet r.remapPool = some (.four poolBlock))

include pool_eq

theorem placed_of_claimed {virtual : Str} {source : RemapSource}
    (claimed : r.ClaimedRange peers entries virtual source) :
    ∃ clusterID text real, r.Placed peers clusterID text real ∧ ∃ fits : poolBlock.len ≤ real.len,
        virtual = blockText (virtualBlock poolBlock clusterID text real.len fits real.len_le) := by
  obtain ⟨peer, in_peers, placement, placed, allocated, -⟩ :=
    (claimedRange_iff built _ _).mp claimed
  obtain ⟨block, presented, rfl⟩ := (allocates_iff pool_eq).mp allocated
  obtain ⟨real, parsed, fits, rfl⟩ := presentedBlock_eq_some.mp presented
  exact ⟨_, _, real, ⟨peer, in_peers, placement, placed, rfl, parsed⟩, fits, rfl⟩

theorem claimed_of_placed {clusterID text : Str} {real : Block 32}
    (placed : r.Placed peers clusterID text real) :
    ∃ source, ∃ fits : poolBlock.len ≤ real.len, r.sourceKey source = (clusterID, text) ∧
      r.ClaimedRange peers entries
        (blockText (virtualBlock poolBlock clusterID text real.len fits real.len_le)) source := by
  obtain ⟨placeable, -⟩ := (buildEntries_ok_iff peers).mp ⟨entries, built⟩
  obtain ⟨peer, in_peers, placement, placed, key_eq, parsed⟩ := placed
  obtain ⟨virtual, allocated⟩ := (placeable peer in_peers).1 placement placed
  obtain ⟨block, presented, rfl⟩ := (allocates_iff pool_eq).mp allocated
  rw [placedBlock, Placement.block, key_eq] at presented
  obtain ⟨real', parsed', fits, rfl⟩ := presentedBlock_eq_some.mp presented
  obtain rfl := IPNet.four.inj (Option.some.inj (parsed.symm.trans parsed'))
  refine ⟨sourceOf peer.spec.clusterID placement, fits, ?_, ?_⟩
  · rw [sourceKey_sourceOf, key_eq]
  · exact (claimedRange_iff built _ _).mpr ⟨peer, in_peers, placement, placed, allocated, rfl⟩

end Blocks

/-- Overlapping virtual blocks of different sizes are nested by their hash indices. -/
theorem nested_of_overlap {poolBlock : Block 32}
    (pool_eq : parseNet r.remapPool = some (.four poolBlock))
    {outerID outerText innerID innerText : Str} {outer inner : Block 32}
    (outer_placed : r.Placed peers outerID outerText outer)
    (inner_placed : r.Placed peers innerID innerText inner) (shorter : outer.len < inner.len)
    (outer_fits : poolBlock.len ≤ outer.len) (inner_fits : poolBlock.len ≤ inner.len)
    {address : BitVec 32} (in_outer : (virtualBlock poolBlock outerID outerText outer.len outer_fits
      outer.len_le).contains address = true)
    (in_inner : (virtualBlock poolBlock innerID innerText inner.len inner_fits
      inner.len_le).contains address = true) : r.NestedIndices peers := by
  refine ⟨poolBlock, outerID, outerText, outer, innerID, innerText, inner, pool_eq, outer_placed,
    inner_placed, shorter, ?_⟩
  exact (poolBlock.carve_overlaps_iff outer_fits (Nat.le_of_lt shorter) inner.len_le
    (blockIndex_lt _ _ _ _) (blockIndex_lt _ _ _ _)).mp
      ((Block.overlaps_iff _ _).mpr ⟨address, in_outer, in_inner⟩)

end RemapReconciler

/-- The virtual ranges that a run claims for different sources are disjoint as sets of addresses
exactly when no hash index of a smaller range lies in the block selected for a larger one. -/
theorem claimed_ranges_disjoint_iff (r : RemapReconciler) (peers : List MeshPeer)
    (entries : List RemapEntry) (distinct : (peers.map fun peer => peer.spec.clusterID).Nodup)
    (built : r.buildEntries peers = .ok entries) :
    r.RangesDisjoint peers entries ↔ ¬ r.NestedIndices peers := by
  constructor
  · rintro disjoint ⟨poolBlock, outerID, outerText, outer, innerID, innerText, inner, pool_eq,
      outer_placed, inner_placed, shorter, index_eq⟩
    obtain ⟨outerSource, outer_fits, outer_key, outer_claimed⟩ :=
      claimed_of_placed built pool_eq outer_placed
    obtain ⟨innerSource, inner_fits, inner_key, inner_claimed⟩ :=
      claimed_of_placed built pool_eq inner_placed
    have overlap := (poolBlock.carve_overlaps_iff outer_fits (Nat.le_of_lt shorter) inner.len_le
      (blockIndex_lt _ _ _ _) (blockIndex_lt _ _ _ _)).mpr index_eq
    obtain ⟨address, in_outer, in_inner⟩ := (Block.overlaps_iff _ _).mp overlap
    refine disjoint _ _ _ _ outer_claimed inner_claimed ?_ address ⟨?_, ?_⟩
    · intro same
      obtain ⟨-, -, -, -, -, outer_parsed⟩ := outer_placed
      obtain ⟨-, -, -, -, -, inner_parsed⟩ := inner_placed
      rw [same, inner_key, Prod.mk.injEq] at outer_key
      rw [← outer_key.2, inner_parsed] at outer_parsed
      obtain rfl := IPNet.four.inj (Option.some.inj outer_parsed)
      exact Nat.lt_irrefl _ shorter
    · rw [ipv4_member_blockText]
      exact in_outer
    · rw [ipv4_member_blockText]
      exact in_inner
  · intro flat left leftVirtual right rightVirtual left_claimed right_claimed differ address
    rintro ⟨in_left, in_right⟩
    obtain ⟨poolBlock, pool_eq⟩ := dotted_of_claimed built left_claimed
    obtain ⟨_, _, leftReal, left_placed, left_fits, rfl⟩ :=
      placed_of_claimed built pool_eq left_claimed
    obtain ⟨_, _, rightReal, right_placed, right_fits, rfl⟩ :=
      placed_of_claimed built pool_eq right_claimed
    rw [ipv4_member_blockText] at in_left in_right
    rcases Nat.lt_trichotomy leftReal.len rightReal.len with shorter | same_len | longer
    · exact flat (nested_of_overlap pool_eq left_placed right_placed shorter
        left_fits right_fits in_left in_right)
    · have same_block := Block.eq_of_contains
        (show (virtualBlock _ _ _ leftReal.len left_fits leftReal.len_le).len =
          (virtualBlock _ _ _ rightReal.len right_fits rightReal.len_le).len from same_len)
        in_left in_right
      rw [same_block] at left_claimed
      exact differ (source_unique distinct built left_claimed right_claimed)
    · exact flat (nested_of_overlap pool_eq right_placed left_placed longer
        right_fits left_fits in_right in_left)

theorem claimed_ranges_disjoint_iff_clusterA :
    clusterA.buildEntries [peerOf "cluster-b" ["10.244.0.0/16"]] =
        .ok [⟨"10.244.0.0/16", "172.18.0.0/16"⟩] ∧
      (clusterA.RangesDisjoint [peerOf "cluster-b" ["10.244.0.0/16"]]
          [⟨"10.244.0.0/16", "172.18.0.0/16"⟩] ↔
        ¬ clusterA.NestedIndices [peerOf "cluster-b" ["10.244.0.0/16"]]) :=
  ⟨by decide +kernel, claimed_ranges_disjoint_iff _ _ _ (by decide) (by decide +kernel)⟩

/-- A cluster with a pod range and a smaller service range. -/
def twoRangeCluster : RemapReconciler where
  clusterID := "cluster-a"
  localCIDRs := ["10.244.0.0/16", "10.96.24.0/24"]
  remapPool := defaultRemapPool

/-- Two local ranges of different sizes are presented under nested virtual ranges. -/
theorem claimed_ranges_not_disjoint :
    twoRangeCluster.buildEntries
        [peerOf "cluster-b" ["10.244.0.0/16", "10.96.24.0/24"]] =
      .ok [⟨"10.244.0.0/16", "172.18.0.0/16"⟩,
        ⟨"10.96.24.0/24", "172.18.24.0/24"⟩] ∧
    ¬ twoRangeCluster.RangesDisjoint
      [peerOf "cluster-b" ["10.244.0.0/16", "10.96.24.0/24"]]
      [⟨"10.244.0.0/16", "172.18.0.0/16"⟩,
        ⟨"10.96.24.0/24", "172.18.24.0/24"⟩] := by
  refine ⟨by decide +kernel, fun disjoint => ?_⟩
  refine disjoint (.localRange "10.244.0.0/16") "172.18.0.0/16"
    (.localRange "10.96.24.0/24") "172.18.24.0/24" ?_ ?_ (by decide) 0xac121801#32
    (by decide +kernel)
  · exact mem_cons_self
  · exact mem_cons_of_mem _ mem_cons_self

end DatawerxMesh.Controllers
