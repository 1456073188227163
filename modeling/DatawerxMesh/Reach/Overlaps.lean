import DatawerxMesh.Reach.Snapshot
import DatawerxMesh.Topology.Detection

/-!
# Overlapping peers in the matrix

Of two peers that share addresses only the one with the smaller ID is named in a conflict and
reported as degraded.
-/

namespace DatawerxMesh.Reach

open Go Addressing Meshfw Controllers DatawerxMesh.Topology List

variable {peers : List MeshPeer} {p : MeshPeer}

/-- Cluster IDs are present and not repeated. -/
structure Identified (peers : List MeshPeer) : Prop where
  present : ∀ p ∈ peers, p.spec.clusterID ≠ []
  distinct : (peers.map fun p => p.spec.clusterID).Nodup

theorem Identified.eq (identified : Identified peers) {q : MeshPeer} (p_listed : p ∈ peers)
    (q_listed : q ∈ peers) (same : p.spec.clusterID = q.spec.clusterID) : p = q :=
  inj_on_of_nodup_map identified.distinct p_listed q_listed same

theorem status_reachFor {p : Peer} (connected : p.connected = true) (accepts : List Access)
    (protected_ : List Str) :
    (reachFor p accepts protected_).status = .degraded ↔ p.conflict = true := by
  unfold reachFor
  rw [if_neg (by simp [connected])]
  cases p.conflict with
  | true => simp
  | false =>
    refine iff_of_false ?_ (by simp)
    rw [if_neg (by simp)]
    split
    · simp
    · dsimp only
      split
      · simp
      · split <;> simp

section Snapshot

variable (go : Runtime Site) (quote : Str → Str) (policies : List MeshNetworkPolicy)

theorem conflict_iff_named (peers : List MeshPeer) (id : Str) :
    ((snapshotOf go quote peers policies).conflicts.any fun c => c.clusterID == id) = true ↔
      Named (detectTopologyConflicts quote (peers.map identityOf)) id := by
  have conflicts_eq : (snapshotOf go quote peers policies).conflicts =
      Sorting.sort lessReport (topologyConflicts quote (peers.map identityOf)) := rfl
  simp [conflicts_eq, topologyConflicts, Named]

theorem mem_snapshot_peers (peers : List MeshPeer) (record : PeerSnapshot) :
    record ∈ (snapshotOf go quote peers policies).peers ↔ ∃ p ∈ peers, record = recordOf p := by
  have orders : Sorting.Orders (fun a b : PeerSnapshot => less a.clusterID b.clusterID)
      PeerSnapshot.clusterID := less_orders.onField
  have arranged := go.sortSlice_arranges .peers orders (gatherPeers peers).1
  refine (arranged.perm.mem_iff (a := record)).trans ?_
  simp [gatherPeers, eq_comm]

theorem exists_row {peers : List MeshPeer} {p : MeshPeer} (listed : p ∈ peers)
    (rows : Runtime Unit) :
    ∃ row ∈ (fromSnapshot rows (snapshotOf go quote peers policies)).reachabilities,
      row.cluster = p.spec.clusterID :=
  ⟨_, mem_plan.mpr ⟨_, mem_map_of_mem
    ((mem_snapshot_peers go quote policies peers _).mpr ⟨p, listed, rfl⟩), rfl⟩,
    reachFor_cluster _ _ _⟩

variable {go quote policies}

theorem degraded_iff_named {peers : List MeshPeer} (identified : Identified peers) {p : MeshPeer}
    (listed : p ∈ peers) (connected : p.status.phase = .connected) {rows : Runtime Unit}
    {row : Reachability}
    (in_matrix : row ∈ (fromSnapshot rows (snapshotOf go quote peers policies)).reachabilities)
    (same : row.cluster = p.spec.clusterID) :
    row.status = .degraded ↔
      Named (detectTopologyConflicts quote (peers.map identityOf)) p.spec.clusterID := by
  obtain ⟨peer, in_input, rfl⟩ := mem_plan.mp in_matrix
  obtain ⟨record, in_snapshot, rfl⟩ := mem_map.mp in_input
  obtain ⟨q, q_listed, rfl⟩ := (mem_snapshot_peers go quote policies peers record).mp in_snapshot
  obtain rfl : q = p := identified.eq q_listed listed ((reachFor_cluster _ _ _).symm.trans same)
  rw [Input.report, status_reachFor (decide_eq_true connected)]
  exact conflict_iff_named go quote policies peers q.spec.clusterID

end Snapshot

/-- Some CIDRs of the two peers share an address. -/
def Overlapping (p q : MeshPeer) : Prop := (identityOf p).Meets (identityOf q)

/-- Every connected peer that shares addresses with another one is reported as degraded. -/
def OverlapsDegraded (peers : List MeshPeer) : Prop :=
  ∀ (go : Runtime Site) (rows : Runtime Unit) (quote : Str → Str)
    (policies : List MeshNetworkPolicy), ∀ p ∈ peers, p.status.phase = .connected →
    (∃ q ∈ peers, q ≠ p ∧ Overlapping p q) →
    ∀ row ∈ (fromSnapshot rows (snapshotOf go quote peers policies)).reachabilities,
      row.cluster = p.spec.clusterID → row.status = .degraded

/-- A missing key or endpoint, a malformed CIDR, or the key of a peer listed before. -/
def Blemished (peers : List MeshPeer) (p : MeshPeer) : Prop :=
  p.spec.publicKey = [] ∨ p.spec.endpoint = [] ∨ (∃ c ∈ p.spec.allCIDRs, parseNet c = none) ∨
    ∃ before after, peers = before ++ p :: after ∧ ∃ q ∈ before, q.spec.publicKey = p.spec.publicKey

theorem blemished_of_flawed (identified : Identified peers) {before after : List MeshPeer}
    (peers_eq : peers = before ++ p :: after)
    (flawed : Flawed (before.map identityOf) (identityOf p)) : Blemished peers p := by
  rcases flawed with keyless | unplaced | malformed | ⟨_, in_before, repeated⟩ |
    ⟨-, _, in_before, shared⟩
  · exact .inl keyless
  · exact .inr (.inl unplaced)
  · exact .inr (.inr (.inl malformed))
  · obtain ⟨other, in_first, rfl⟩ := mem_map.mp in_before
    have distinct := identified.distinct
    rw [peers_eq, map_append, map_cons, nodup_append] at distinct
    exact absurd repeated (distinct.2.2 _ (mem_map_of_mem in_first) _ mem_cons_self)
  · obtain ⟨other, in_first, rfl⟩ := mem_map.mp in_before
    exact .inr (.inr (.inr ⟨before, after, peers_eq, other, in_first, shared⟩))

theorem Blemished.flawed (listed : p ∈ peers) (blemished : Blemished peers p) :
    ∃ before after, peers = before ++ p :: after ∧
      Flawed (before.map identityOf) (identityOf p) := by
  obtain ⟨first, later, peers_eq⟩ := append_of_mem listed
  rcases blemished with keyless | unplaced | malformed |
    ⟨before, after, split, q, in_before, shared⟩
  · exact ⟨first, later, peers_eq, .inl keyless⟩
  · exact ⟨first, later, peers_eq, .inr (.inl unplaced)⟩
  · exact ⟨first, later, peers_eq, .inr (.inr (.inl malformed))⟩
  · refine ⟨before, after, split, ?_⟩
    by_cases keyless : p.spec.publicKey = []
    · exact .inl keyless
    · exact .inr (.inr (.inr (.inr ⟨keyless, _, mem_map_of_mem in_before, shared⟩)))

theorem named_iff (identified : Identified peers) (quote : Str → Str) (listed : p ∈ peers) :
    Named (detectTopologyConflicts quote (peers.map identityOf)) p.spec.clusterID ↔
      Blemished peers p ∨
        ∃ q ∈ peers, less p.spec.clusterID q.spec.clusterID = true ∧ Overlapping p q := by
  have present : ∀ identity ∈ peers.map identityOf, identity.clusterID ≠ [] := by
    intro identity mem
    obtain ⟨q, q_listed, rfl⟩ := mem_map.mp mem
    exact identified.present q q_listed
  rw [named_detectTopologyConflicts quote present]
  refine or_congr ⟨?_, ?_⟩ ⟨?_, ?_⟩
  · rintro ⟨before, identity, after, split, same, flawed⟩
    obtain ⟨first, rest, peers_eq, rfl, rest_eq⟩ := map_eq_append_iff.mp split
    obtain ⟨q, later, rfl, rfl, rfl⟩ := map_eq_cons_iff.mp rest_eq
    obtain rfl : q = p := identified.eq (by simp [peers_eq]) listed same
    exact blemished_of_flawed identified peers_eq flawed
  · intro blemished
    obtain ⟨before, after, peers_eq, flawed⟩ := blemished.flawed listed
    refine ⟨before.map identityOf, identityOf p, after.map identityOf, ?_, rfl, flawed⟩
    rw [peers_eq, map_append, map_cons]
  · rintro ⟨_, in_map, same, _, in_map', before, meets⟩
    obtain ⟨q, q_listed, rfl⟩ := mem_map.mp in_map
    obtain ⟨other, other_listed, rfl⟩ := mem_map.mp in_map'
    obtain rfl : q = p := identified.eq q_listed listed same
    exact ⟨other, other_listed, before, meets⟩
  · rintro ⟨q, q_listed, before, meets⟩
    exact ⟨_, mem_map_of_mem listed, rfl, _, mem_map_of_mem q_listed, before, meets⟩

/-- Overlapping peers are all reported as degraded exactly when every connected one overlaps a peer
with a greater cluster ID or has another blemish. -/
theorem overlaps_degraded_iff (peers : List MeshPeer) (identified : Identified peers) :
    OverlapsDegraded peers ↔ ∀ p ∈ peers, p.status.phase = .connected →
      (∃ q ∈ peers, q ≠ p ∧ Overlapping p q) → Blemished peers p ∨
        ∃ q ∈ peers, less p.spec.clusterID q.spec.clusterID = true ∧ Overlapping p q := by
  constructor
  · intro degraded p listed connected overlaps
    obtain ⟨row, in_matrix, same⟩ := exists_row (.stable Site) id [] listed (.stable Unit)
    rw [← named_iff identified id listed,
      ← degraded_iff_named identified listed connected in_matrix same]
    exact degraded (.stable Site) (.stable Unit) id [] p listed connected overlaps row in_matrix
      same
  · intro named go rows quote policies p listed connected overlaps row in_matrix same
    rw [degraded_iff_named identified listed connected in_matrix same,
      named_iff identified quote listed]
    exact named p listed connected overlaps

/-- A peer with one range. -/
def fullPeer (clusterID publicKey cidr : Str) (phase : MeshPeerPhase) : MeshPeer where
  namespace_ := "datawerx"
  name := clusterID
  generation := 1
  spec := ⟨clusterID, publicKey, "198.51.100.7:51820", [cidr], []⟩
  status := { phase, lastHandshakeTime := 0, message := [], observedGeneration := 1 }

/-- A connected peer that overlaps one with a greater ID, which is not connected. -/
def pendingOverlap : List MeshPeer :=
  [fullPeer "cluster-a" "key-a" "10.0.0.0/16" .connected,
    fullPeer "cluster-b" "key-b" "10.0.1.0/24" .pending]

theorem overlaps_degraded_pending :
    Identified pendingOverlap ∧ OverlapsDegraded pendingOverlap := by
  have identified : Identified pendingOverlap := ⟨by decide, by decide⟩
  refine ⟨identified, (overlaps_degraded_iff pendingOverlap identified).mpr ?_⟩
  intro p listed connected overlaps
  obtain ⟨q, q_listed, q_ne, overlapping⟩ := overlaps
  have first : p = fullPeer "cluster-a" "key-a" "10.0.0.0/16" .connected := by
    rcases mem_cons.mp listed with rfl | later
    · rfl
    · obtain rfl := mem_singleton.mp later
      cases connected
  subst first
  refine .inr ⟨q, q_listed, ?_, overlapping⟩
  rcases mem_cons.mp q_listed with rfl | later
  · exact absurd rfl q_ne
  · obtain rfl := mem_singleton.mp later
    decide

/-- The same peers, both connected. -/
def connectedOverlap : List MeshPeer :=
  [fullPeer "cluster-a" "key-a" "10.0.0.0/16" .connected,
    fullPeer "cluster-b" "key-b" "10.0.1.0/24" .connected]

/-- Of two overlapping peers the one with the greater ID is reported as reachable. -/
theorem greater_id_reachable :
    Identified connectedOverlap ∧
    (fromSnapshot (.stable Unit)
        (snapshotOf (.stable Site) id connectedOverlap [])).reachabilities =
      [⟨"cluster-a", .degraded, conflictReason, []⟩,
        ⟨"cluster-b", .reachable, openReason, []⟩] ∧
    ¬ OverlapsDegraded connectedOverlap := by
  have rows : (fromSnapshot (.stable Unit)
      (snapshotOf (.stable Site) id connectedOverlap [])).reachabilities =
      [⟨"cluster-a", .degraded, conflictReason, []⟩,
        ⟨"cluster-b", .reachable, openReason, []⟩] := by
    decide +kernel
  refine ⟨⟨by decide, by decide⟩, rows, fun degraded => ?_⟩
  have status := degraded (.stable Site) (.stable Unit) id [] _
    (mem_cons_of_mem _ (mem_singleton_self _)) rfl ?_
    ⟨"cluster-b", .reachable, openReason, []⟩ (by simp [rows]) rfl
  · cases status
  · exact ⟨_, mem_cons_self, by decide, "10.0.1.0/24", mem_cons_self,
      .four (Block.around 0x0A000100#32 24 (by decide)), by decide +kernel,
      "10.0.0.0/16", mem_cons_self, .four (Block.around 0x0A000000#32 16 (by decide)),
      by decide +kernel, (cidrsOverlap_iff_shares _ _).mp (by decide +kernel)⟩

end DatawerxMesh.Reach
