import DatawerxMesh.Verify.Snapshot

/-!
# The connectivity report

`pkg/slo/slo.go` and `pkg/slo/snapshot.go`: the expected reachability of every cluster against the
observed liveness of its tunnel.
-/

namespace DatawerxMesh.Slo

open Go DatawerxMesh.Verify Accumulation List

/-- The state of a connection. -/
inductive Verdict where
  | healthy
  | impaired
  | blocked
  | degraded
  | down
  deriving DecidableEq

/-- How long ago a peer was heard. -/
structure Liveness where
  handshakeAge : Int
  deriving DecidableEq

/-- It was heard recently. -/
def Liveness.live (l : Liveness) (staleAfter : Int) : Bool :=
  decide (0 ≤ l.handshakeAge) && decide (l.handshakeAge ≤ staleAfter)

/-- The verdict on a cluster. -/
structure Signal where
  cluster : Str
  verdict : Verdict
  expected : Reach.Status
  tunnelLive : Bool
  reason : Str
  deriving DecidableEq

/-- The connectivity report. -/
structure Report where
  apiVersion : Str
  kind : Str
  signals : List Signal
  deriving DecidableEq

variable (r : Reach.Reachability)

/-- The verdict on a row of the matrix. -/
def signalFor (live : Bool) : Signal :=
  match r.status with
  | .unreachable => ⟨r.cluster, .down, r.status, live, r.reason⟩
  | .degraded => ⟨r.cluster, .degraded, r.status, live, r.reason⟩
  | .blocked => ⟨r.cluster, .blocked, r.status, live, str ("mesh policy default-denies this " ++
      "cluster; its unreachability is intended, not a fault")⟩
  | .reachable =>
    if live then
      ⟨r.cluster, .healthy, r.status, live, str ("policy and topology permit this cluster and " ++
        "the tunnel is passing traffic (recent handshake)")⟩
    else
      ⟨r.cluster, .impaired, r.status, live, str ("policy and topology permit this cluster, " ++
        "but the WireGuard handshake is stale or absent — traffic is likely not flowing; " ++
        "check endpoint reachability, keys, and firewalls")⟩

/-- The verdicts on all rows. -/
def assess (go : Runtime Unit) (matrix : Reach.Matrix) (liveness : Str → Option Liveness)
    (staleAfter : Int) : Report where
  apiVersion := "mesh.datawerx.io/connectivity/v1alpha1"
  kind := "MeshConnectivity"
  signals := go.sortSlice () (fun a b => less a.cluster b.cluster) <|
    matrix.reachabilities.map fun r =>
      signalFor r ((liveness r.cluster).any fun lv => lv.live staleAfter)

/-- Probes count before handshakes. -/
def ageOf (p : PeerRecord) : Int := if p.probed then p.probeAge else p.handshakeAge

/-- The map that `FromSnapshot` fills. -/
def livenessOf (snap : Snapshot) : Str → Option Liveness :=
  snap.peers.foldl (fun m p => Function.update m p.clusterID (some ⟨ageOf p⟩)) fun _ => none

/-- The report of a snapshot. -/
def fromSnapshot (rows signals : Runtime Unit) (snap : Snapshot) : Report :=
  assess signals (Reach.fromSnapshot rows snap.reach) (livenessOf snap) staleHandshakeSeconds

@[simp] theorem signalFor_cluster (live : Bool) :
    (signalFor r live).cluster = r.cluster := by
  unfold signalFor
  split
  case h_4 => split <;> rfl
  all_goals rfl

@[simp] theorem signalFor_tunnelLive (live : Bool) :
    (signalFor r live).tunnelLive = live := by
  unfold signalFor
  split
  case h_4 => split <;> rfl
  all_goals rfl

theorem signalFor_impaired_iff (live : Bool) :
    (signalFor r live).verdict = .impaired ↔ r.status = .reachable ∧ live = false := by
  unfold signalFor
  cases r.status with
  | reachable => cases live <;> simp
  | blocked | degraded | unreachable => simp

theorem mem_signals {rows signals : Runtime Unit} {snap : Snapshot} {s : Signal} :
    s ∈ (fromSnapshot rows signals snap).signals ↔
      ∃ r ∈ (Reach.fromSnapshot rows snap.reach).reachabilities, s = signalFor r
        ((livenessOf snap r.cluster).any fun lv => lv.live staleHandshakeSeconds) := by
  have orders : Sorting.Orders (fun a b : Signal => less a.cluster b.cluster) Signal.cluster :=
    less_orders.onField
  refine (signals.sortSlice_arranges () orders _).perm.mem_iff.trans ?_
  rw [mem_map]
  exact exists_congr fun r => and_congr_right fun _ => eq_comm

/-- The tunnel of the peer passes traffic, as far as it is observed. -/
def Alive (now : Int) (p : ProbedPeer) : Prop :=
  Recent now p.lastProbeAttempt ∧ Recent now p.lastProbeTime ∨
    ¬ Recent now p.lastProbeAttempt ∧ Recent now p.status.lastHandshakeTime

instance (now : Int) (p : ProbedPeer) : Decidable (Alive now p) :=
  inferInstanceAs (Decidable (_ ∨ _))

section Observed

variable {go : Runtime SnapshotSite} {rows signals : Runtime Unit} {in_ : SnapshotInputs}
  {peers : List ProbedPeer}

/-- The snapshot of some peers. -/
def observed (go : Runtime SnapshotSite) (in_ : SnapshotInputs) (peers : List ProbedPeer) :
    Snapshot :=
  buildSnapshot go { in_ with peers := gatherPeers peers }

/-- The record of a peer before its ages are known. -/
def recordOf (p : ProbedPeer) : PeerRecord := (gatherPeers [p]).head (cons_ne_nil _ _)

theorem mem_peers_observed {record : PeerRecord} :
    record ∈ (observed go in_ peers).peers ↔
      ∃ p ∈ peers, observe in_.now (recordOf p) = record := by
  refine mem_peers_buildSnapshot.trans ?_
  simp only [gatherPeers, mem_map, exists_exists_and_eq_and]
  rfl

theorem livenessOf_observed (distinct : (peers.map fun p => p.spec.clusterID).Nodup)
    {p : ProbedPeer} (listed : p ∈ peers) :
    livenessOf (observed go in_ peers) p.spec.clusterID =
      some ⟨ageOf (observe in_.now (recordOf p))⟩ := by
  have orders : Sorting.Orders (fun a b : PeerRecord => less a.clusterID b.clusterID)
      (fun p => p.clusterID) := less_orders.onField
  have perm := (go.sortSlice_arranges .peers orders
    ((gatherPeers peers).map (observe in_.now))).perm
  have distinct_records : ((observed go in_ peers).peers.map fun p => p.clusterID).Nodup := by
    refine (perm.map _).nodup_iff.mpr ?_
    rw [gatherPeers, map_map, map_map]
    exact distinct
  exact foldl_update_of_mem distinct_records (fun p => some (Liveness.mk (ageOf p))) _
    (mem_peers_observed.mpr ⟨p, listed, rfl⟩)

theorem live_iff_alive (positive : 0 < in_.now) (p : ProbedPeer) :
    (Liveness.mk (ageOf (observe in_.now (recordOf p)))).live staleHandshakeSeconds = true ↔
      Alive in_.now p := by
  have probed := @probed_observe in_.now (recordOf p) positive
  have in_range := fun last => @handshakeAge_in_range_iff in_.now last positive
  rw [Liveness.live, Bool.and_eq_true, decide_eq_true_eq, decide_eq_true_eq, ageOf, Alive]
  by_cases recently : Recent in_.now p.lastProbeAttempt
  · rw [if_pos (probed.mpr recently)]
    simp only [recently, true_and, not_true_eq_false, false_and, or_false]
    exact in_range p.lastProbeTime
  · rw [if_neg (fun is_probed => recently (probed.mp is_probed))]
    simp only [recently, false_and, not_false_eq_true, true_and, false_or]
    exact in_range p.status.lastHandshakeTime

theorem exists_row_of_peer {p : ProbedPeer} (listed : p ∈ peers) :
    ∃ row ∈ (Reach.fromSnapshot rows (observed go in_ peers).reach).reachabilities,
      row.cluster = p.spec.clusterID :=
  ⟨_, Reach.mem_plan.mpr ⟨_, mem_map_of_mem (mem_map_of_mem
    (mem_peers_observed.mpr ⟨p, listed, rfl⟩)), rfl⟩, Reach.reachFor_cluster _ _ _⟩

theorem mem_signals_observed (distinct : (peers.map fun p => p.spec.clusterID).Nodup)
    (positive : 0 < in_.now) {p : ProbedPeer} (listed : p ∈ peers) {s : Signal} :
    s ∈ (fromSnapshot rows signals (observed go in_ peers)).signals ∧
        s.cluster = p.spec.clusterID ↔
      ∃ row ∈ (Reach.fromSnapshot rows (observed go in_ peers).reach).reachabilities,
        row.cluster = p.spec.clusterID ∧ s = signalFor row (decide (Alive in_.now p)) := by
  have live : ∀ row : Reach.Reachability, row.cluster = p.spec.clusterID →
      ((livenessOf (observed go in_ peers) row.cluster).any
        fun lv => lv.live staleHandshakeSeconds) = decide (Alive in_.now p) := by
    intro row same
    rw [same, livenessOf_observed distinct listed, Option.any_some, Bool.eq_iff_iff,
      live_iff_alive positive, decide_eq_true_eq]
  rw [mem_signals]
  constructor
  · rintro ⟨⟨row, in_matrix, rfl⟩, same⟩
    rw [signalFor_cluster] at same
    exact ⟨row, in_matrix, same, by rw [live row same]⟩
  · rintro ⟨row, in_matrix, same, rfl⟩
    exact ⟨⟨row, in_matrix, by rw [live row same]⟩, by rw [signalFor_cluster, same]⟩

end Observed

/-- A cluster of which nothing but the peers is of interest, at the given time. -/
def bareInputs (now : Int) : SnapshotInputs :=
  ⟨now, [], fun _ => true, true, 1, 1, [], [], [], [], [], []⟩

/-- A peer in the given phase with its observations. -/
def observedPeer (clusterID : Str) (phase : MeshPeerPhase)
    (lastHandshakeTime lastProbeAttempt lastProbeTime : Int) : ProbedPeer where
  namespace_ := []
  name := clusterID
  generation := 1
  spec := ⟨clusterID, clusterID, "192.0.2.1:51820", ["10.1.0.0/16"], []⟩
  status := ⟨phase, lastHandshakeTime, [], 1⟩
  lastProbeAttempt := lastProbeAttempt
  lastProbeTime := lastProbeTime

end DatawerxMesh.Slo
