import DatawerxMesh.Mesh.RoundTrip

/-!
# Acceptance in a mesh

A range that overlaps one peer is presented under its virtual range to all of them, and a peer
without an overlap accepts its real addresses only.
-/

namespace DatawerxMesh.Mesh

open Go Addressing Program DatawerxMesh.Topology Controllers NatPlane Netfilter List

/-- Clusters with distinct identifiers and a common pool, each with a peer for every other one that
advertises its ranges. -/
structure ClusterMesh where
  pool : Str
  clusters : List Cluster
  distinct : (clusters.map Cluster.id).Nodup
  held : Cluster → List MeshPeer
  advertise : ∀ here ∈ clusters,
    AllAdvertise (held here) fun there => there ∈ clusters ∧ there.id ≠ here.id

namespace ClusterMesh

/-- The entries of every cluster are built, and every agent programs all its peers. -/
structure Converged (mesh : ClusterMesh) (entries : Cluster → List RemapEntry) : Prop where
  built : ∀ here ∈ mesh.clusters,
    (here.agent mesh.pool).remap.buildEntries (mesh.held here) = .ok (entries here)
  programmed : ∀ here ∈ mesh.clusters, ∀ peer ∈ mesh.held here, ∃ allowedIPs,
    (here.agent mesh.pool).Programs peer allowedIPs

/-- A packet for a destination routed to another cluster carries a source that is accepted there. -/
def Accepts (mesh : ClusterMesh) (entries : Cluster → List RemapEntry) : Prop :=
  ∀ a ∈ mesh.clusters, ∀ b ∈ mesh.clusters, a.id ≠ b.id →
    ∀ peerB ∈ mesh.held a, Advertises peerB b →
    ∀ routesB, (a.agent mesh.pool).Programs peerB routesB →
    ∀ peerA ∈ mesh.held b, Advertises peerA a →
    ∀ allowedA, (b.agent mesh.pool).Programs peerA allowedA →
    ∀ packet : Packet (BitVec 32), (∃ range ∈ a.ranges, range.contains packet.source = true) →
      (∃ cidr ∈ routesB, ipv4.member cidr packet.destination = true) →
      ∃ cidr ∈ allowedA, ipv4.member cidr (postSource (entries a) packet) = true

/-- The second cluster accepts the first one under a real range that does not overlap it, or under
the pool block of one that does. -/
def AcceptedFrom (poolBlock : Block 32) (a b : Cluster) (address : BitVec 32) : Prop :=
  ∃ range ∈ a.ranges, (¬ b.Meets range ∧ range.contains address = true) ∨
    (b.Meets range ∧ ∃ image, presentedBlock poolBlock a.id (blockText range) = some image ∧
      image.contains address = true)

/-- A range that overlaps some cluster overlaps each other one that has ranges, or its pool block
lies in what that cluster accepts. -/
def Covered (mesh : ClusterMesh) : Prop :=
  ∀ a ∈ mesh.clusters, ∀ b ∈ mesh.clusters, a.id ≠ b.id → b.ranges ≠ [] →
    ∀ range ∈ a.ranges, (∃ c ∈ mesh.clusters, c.id ≠ a.id ∧ c.Meets range) →
      b.Meets range ∨ ∀ poolBlock virtual, parseNet mesh.pool = some (.four poolBlock) →
        presentedBlock poolBlock a.id (blockText range) = some virtual →
        ∀ address, virtual.contains address = true → AcceptedFrom poolBlock a b address

end ClusterMesh

section Acceptance

variable {pool : Str} {a b : Cluster}

section

variable {peers : List MeshPeer} {built_entries : List RemapEntry}
  (built : (a.agent pool).remap.buildEntries peers = .ok built_entries) {peer : MeshPeer}
  (in_peers : peer ∈ peers) (advertises : Advertises peer b)

include built in_peers advertises

theorem exists_route {range : Block 32} (in_ranges : range ∈ b.ranges) (meets : a.Meets range) :
    ∃ virtual, virtualCIDR pool b.id (blockText range) = .ok (blockText virtual) := by
  obtain ⟨placeable, -⟩ := (RemapReconciler.buildEntries_ok_iff peers).mp ⟨_, built⟩
  have placed : .peer (blockText range) ∈ (a.agent pool).remap.peerPlacements peer := by
    rw [RemapReconciler.mem_peerPlacements_peer, advertises.remapConflicts_eq]
    exact ⟨advertises.keyed, (mem_conflicts advertises).mpr ⟨range, in_ranges, rfl, meets⟩,
      by rw [parseNet_blockText]; rfl⟩
  obtain ⟨poolBlock, pool_eq⟩ :=
    RemapReconciler.dotted_of_placeable (placeable peer in_peers) placed
  obtain ⟨text, allocated⟩ := (placeable peer in_peers).1 _ placed
  have virtual_ok : virtualCIDR pool peer.spec.clusterID (blockText range) = .ok text :=
    Placement.allocate_eq_ok.mp allocated
  rw [advertises.clusterID_eq] at virtual_ok
  obtain ⟨virtual, -, rfl⟩ := (virtualCIDR_eq_ok pool_eq).mp virtual_ok
  exact ⟨virtual, virtual_ok⟩

theorem exists_destination {routes : List Str}
    (programmed : (a.agent pool).Programs peer routes) (nonempty : b.ranges ≠ []) :
    ∃ destination, ∃ cidr ∈ routes, ipv4.member cidr destination = true := by
  obtain ⟨range, in_ranges⟩ := exists_mem_of_ne_nil _ nonempty
  by_cases meets : a.Meets range
  · obtain ⟨virtual, virtual_ok⟩ := exists_route built in_peers advertises in_ranges meets
    refine ⟨virtual.base, blockText virtual, ?_, ?_⟩
    · exact (mem_allowedIPs advertises programmed).mpr
        (Or.inr ⟨range, in_ranges, meets, virtual_ok⟩)
    · rw [ipv4_member_blockText, virtual.contains_base]
  · refine ⟨range.base, blockText range, ?_, ?_⟩
    · exact (mem_allowedIPs advertises programmed).mpr (Or.inl ⟨range, in_ranges, rfl, meets⟩)
    · rw [ipv4_member_blockText, range.contains_base]

end

theorem accepted_iff {poolBlock : Block 32} (pool_eq : parseNet pool = some (.four poolBlock))
    {peer : MeshPeer} (advertises : Advertises peer a) {allowed : List Str}
    (programmed : (b.agent pool).Programs peer allowed) (address : BitVec 32) :
    (∃ cidr ∈ allowed, ipv4.member cidr address = true) ↔
      ClusterMesh.AcceptedFrom poolBlock a b address := by
  simp only [mem_allowedIPs advertises programmed]
  constructor
  · rintro ⟨cidr, ⟨range, in_ranges, rfl, apart⟩ | ⟨range, in_ranges, meets, virtual_ok⟩, matched⟩
    · rw [ipv4_member_blockText] at matched
      exact ⟨range, in_ranges, Or.inl ⟨apart, matched⟩⟩
    · obtain ⟨image, presented, rfl⟩ := (virtualCIDR_eq_ok pool_eq).mp virtual_ok
      rw [ipv4_member_blockText] at matched
      exact ⟨range, in_ranges, Or.inr ⟨meets, image, presented, matched⟩⟩
  · rintro ⟨range, in_ranges, ⟨apart, contains⟩ | ⟨meets, image, presented, contains⟩⟩
    · exact ⟨blockText range, Or.inl ⟨range, in_ranges, rfl, apart⟩,
        by rw [ipv4_member_blockText, contains]⟩
    · exact ⟨blockText image,
        Or.inr ⟨range, in_ranges, meets, (virtualCIDR_eq_ok pool_eq).mpr ⟨image, presented, rfl⟩⟩,
        by rw [ipv4_member_blockText, contains]⟩

/-- The virtual range does not depend on the destination. -/
theorem ClusterMesh.Converged.postSource_of_overlapped {mesh : ClusterMesh}
    {entries : Cluster → List RemapEntry} (converged : mesh.Converged entries)
    (in_a : a ∈ mesh.clusters) {range : Block 32} (in_ranges : range ∈ a.ranges)
    (overlapped : ∃ c ∈ mesh.clusters, c.id ≠ a.id ∧ c.Meets range) :
    ∃ poolBlock virtual, parseNet mesh.pool = some (.four poolBlock) ∧
      presentedBlock poolBlock a.id (blockText range) = some virtual ∧ virtual.len = range.len ∧
      ∀ packet : Packet (BitVec 32), range.contains packet.source = true →
        postSource (entries a) packet = virtual.renumber packet.source := by
  obtain ⟨c, in_c, c_differs, c_meets⟩ := overlapped
  obtain ⟨poolBlock, virtual, pool_eq, presented, len_eq, entry⟩ :=
    exists_entry (mesh.advertise a in_a) (converged.built a in_a) in_ranges
      ⟨in_c, c_differs⟩ c_meets
  exact ⟨poolBlock, virtual, pool_eq, presented, len_eq, fun packet contains =>
    postSource_of_entry (mesh.advertise a in_a) (converged.built a in_a) in_ranges entry contains⟩

end Acceptance

/-- Sources are accepted throughout a converged mesh exactly when every range that overlaps one
cluster overlaps all others, up to pool blocks that are accepted by coincidence. -/
theorem mesh_accepts_iff (mesh : ClusterMesh) (entries : Cluster → List RemapEntry)
    (converged : mesh.Converged entries) : mesh.Accepts entries ↔ mesh.Covered := by
  constructor
  · intro accepts a in_a b in_b differ nonempty range in_ranges overlapped
    by_cases meets : b.Meets range
    · exact Or.inl meets
    refine Or.inr fun poolBlock virtual pool_eq presented address contains => ?_
    obtain ⟨peerB, held_b, advertises_b⟩ := (mesh.advertise a in_a).2 b ⟨in_b, Ne.symm differ⟩
    obtain ⟨peerA, held_a, advertises_a⟩ := (mesh.advertise b in_b).2 a ⟨in_a, differ⟩
    obtain ⟨routesB, programs_b⟩ := converged.programmed a in_a peerB held_b
    obtain ⟨allowedA, programs_a⟩ := converged.programmed b in_b peerA held_a
    obtain ⟨destination, routed⟩ :=
      exists_destination (converged.built a in_a) held_b advertises_b programs_b nonempty
    obtain ⟨_, found, pool_eq', presented', len_eq, leaves⟩ :=
      converged.postSource_of_overlapped in_a in_ranges overlapped
    obtain rfl := IPNet.four.inj (Option.some.inj (pool_eq.symm.trans pool_eq'))
    obtain rfl := Option.some.inj (presented.symm.trans presented')
    -- The source whose image in the virtual range is the given address.
    have accepted := accepts a in_a b in_b differ peerB held_b advertises_b routesB programs_b peerA
      held_a advertises_a allowedA programs_a
      ⟨range.renumber address, destination, .tcp, 0, .new⟩
      ⟨range, in_ranges, range.contains_renumber address⟩ routed
    rw [leaves _ (range.contains_renumber address),
      Block.renumber_renumber virtual range len_eq contains] at accepted
    exact (accepted_iff pool_eq advertises_a programs_a address).mp accepted
  · rintro covered a in_a b in_b differ peerB held_b advertises_b routesB programs_b peerA held_a
      advertises_a allowedA programs_a packet ⟨range, in_ranges, contains⟩ ⟨cidr, in_routes, routed⟩
    have nonempty : b.ranges ≠ [] := by
      obtain ⟨other, other_mem, -⟩ | ⟨other, other_mem, -⟩ :=
        (mem_allowedIPs advertises_b programs_b).mp in_routes
      · exact ne_nil_of_mem other_mem
      · exact ne_nil_of_mem other_mem
    by_cases overlapped : ∃ c ∈ mesh.clusters, c.id ≠ a.id ∧ c.Meets range
    · obtain ⟨poolBlock, virtual, pool_eq, presented, -, leaves⟩ :=
        converged.postSource_of_overlapped in_a in_ranges overlapped
      rw [leaves packet contains, accepted_iff pool_eq advertises_a programs_a]
      have in_virtual := virtual.contains_renumber packet.source
      obtain meets | accepted := covered a in_a b in_b differ nonempty range in_ranges overlapped
      · exact ⟨range, in_ranges, Or.inr ⟨meets, virtual, presented, in_virtual⟩⟩
      · exact accepted poolBlock virtual pool_eq presented _ in_virtual
    · have apart : ∀ c, c ∈ mesh.clusters ∧ c.id ≠ a.id → ¬ c.Meets range :=
        fun c other meets => overlapped ⟨c, other.1, other.2, meets⟩
      rw [postSource_of_apart (mesh.advertise a in_a) (converged.built a in_a) in_ranges apart
        contains]
      refine ⟨blockText range, ?_, by rw [ipv4_member_blockText, contains]⟩
      exact (mem_allowedIPs advertises_a programs_a).mpr
        (Or.inl ⟨range, in_ranges, rfl, apart b ⟨in_b, Ne.symm differ⟩⟩)

/-- The mesh in which every cluster holds one peer for every other one. -/
def fullMesh (pool : Str) (clusters : List Cluster) (distinct : (clusters.map Cluster.id).Nodup) :
    ClusterMesh where
  pool := pool
  clusters := clusters
  distinct := distinct
  held here := (clusters.filter fun there => there.id ≠ here.id).map fun there =>
    peerOf there.id there.locals
  advertise here _ := by
    constructor
    · intro peer mem
      obtain ⟨there, in_others, rfl⟩ := mem_map.mp mem
      exact ⟨there, by simpa using mem_filter.mp in_others, advertises_peerOf there⟩
    · intro there is_other
      exact ⟨_, mem_map_of_mem (mem_filter.mpr (by simpa using is_other)), advertises_peerOf there⟩

/-- A cluster that uses 10.245.0.0/16. -/
def neighbourCluster : Cluster where
  id := "cluster-c"
  ranges := [sixteenBits 0x0af50000#32 (by decide)]
  safe := by decide +kernel
  disjoint := pairwise_singleton _ _

/-- Three clusters, of which two use the same pod range. -/
def threeClusters : ClusterMesh :=
  fullMesh defaultRemapPool
    [podCluster "cluster-a", podCluster "cluster-b", neighbourCluster]
    (by decide +kernel)

/-- The entries of three clusters. -/
def threeEntries (cluster : Cluster) : List RemapEntry :=
  if cluster.id = "cluster-a" then [⟨"10.244.0.0/16", "172.18.0.0/16"⟩]
  else if cluster.id = "cluster-b" then [⟨"10.244.0.0/16", "172.19.0.0/16"⟩]
  else []

theorem threeClusters_converged : threeClusters.Converged threeEntries where
  built := by decide +kernel
  programmed := by
    have checked : ∀ here ∈ threeClusters.clusters, ∀ peer ∈ threeClusters.held here,
        peer.spec.publicKey ≠ [] ∧
          (planRemap threeClusters.pool here.id here.locals peer.spec.clusterID
            ((here.agent threeClusters.pool).conflicts peer)).isOk = true := by
      decide +kernel
    intro here in_here peer held
    obtain ⟨keyed, planned⟩ := checked here in_here peer held
    obtain ⟨plan, plan_ok⟩ := Outcome.isOk_iff.mp planned
    exact ⟨_, (MeshPeerReconciler.programs_with_pool
      (by decide : defaultRemapPool ≠ [])).mpr ⟨keyed, plan, plan_ok, rfl⟩⟩

theorem mesh_accepts_iff_three : threeClusters.Accepts threeEntries ↔ threeClusters.Covered :=
  mesh_accepts_iff threeClusters threeEntries threeClusters_converged

/-- A packet from the shared range of the first cluster to the third one leaves under a virtual
range that the third one does not accept. -/
theorem three_clusters_drop :
    threeClusters.Converged threeEntries ∧ ¬ threeClusters.Accepts threeEntries := by
  refine ⟨threeClusters_converged, fun accepts => ?_⟩
  have programs : ∀ (here there : Cluster), (planRemap defaultRemapPool here.id here.locals there.id
        ((here.agent defaultRemapPool).conflicts (peerOf there.id there.locals)) = .ok ⟨[], []⟩) →
      (here.agent defaultRemapPool).Programs (peerOf there.id there.locals)
        ((here.agent defaultRemapPool).routable (peerOf there.id there.locals)) := by
    intro here there planned
    rw [MeshPeerReconciler.programs_with_pool (by decide : defaultRemapPool ≠ [])]
    exact ⟨(by decide : str "key" ≠ []), ⟨[], []⟩, planned, (append_nil _).symm⟩
  have accepted := accepts (podCluster "cluster-a") mem_cons_self neighbourCluster
    (mem_of_getLast? rfl) (by decide)
    (peerOf neighbourCluster.id neighbourCluster.locals) (by decide +kernel)
    (advertises_peerOf neighbourCluster) _ (programs _ _ (by decide +kernel))
    (peerOf (podCluster "cluster-a").id (podCluster "cluster-a").locals)
    (by decide +kernel) (advertises_peerOf (podCluster "cluster-a")) _
    (programs _ _ (by decide +kernel))
    ⟨0x0af40001#32, 0x0af50001#32, .tcp, 80, .new⟩ (by decide +kernel) (by decide +kernel)
  exact absurd accepted (by decide +kernel)

end DatawerxMesh.Mesh
