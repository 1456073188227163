import DatawerxMesh.Slo.Report

/-!
# Health-gated failover

`DownClusters` and `clusterDown` of `pkg/controllers/servicenat_controller.go`, whose notion of
liveness is that of the connectivity report, apart from peers not observed yet.
-/

namespace DatawerxMesh.Controllers

open Go DatawerxMesh.Verify DatawerxMesh.Slo

/-- Down by the phase, else by fresh probes, else by the handshake. -/
def clusterDown (p : ProbedPeer) (now staleAfter : Int) : Bool :=
  if p.status.phase = .error then true
  else if 0 < now ∧ 0 < p.lastProbeAttempt ∧ now - p.lastProbeAttempt ≤ staleAfter then
    !(decide (0 < p.lastProbeTime) && decide (now - p.lastProbeTime ≤ staleAfter))
  else if 0 < p.status.lastHandshakeTime then
    decide (staleAfter < now - p.status.lastHandshakeTime)
  else false

/-- The keys of the map that `DownClusters` returns. -/
def downClusters (peers : List ProbedPeer) (now staleAfter : Int) : List Str :=
  (peers.filter fun p => p.spec.clusterID ≠ [] ∧ clusterDown p now staleAfter = true).map
    fun p => p.spec.clusterID

section Down

variable {p : ProbedPeer} {now staleAfter : Int} (not_error : p.status.phase ≠ .error)
include not_error

theorem clusterDown_of_attempted (positive : 0 < now)
    (attempted : 0 < p.lastProbeAttempt ∧ now - p.lastProbeAttempt ≤ staleAfter) :
    clusterDown p now staleAfter = true ↔
      ¬ (0 < p.lastProbeTime ∧ now - p.lastProbeTime ≤ staleAfter) := by
  rw [clusterDown, if_neg not_error, if_pos ⟨positive, attempted⟩]
  simp only [Bool.not_eq_true', Bool.and_eq_false_iff, decide_eq_false_iff_not, not_and_or]

theorem clusterDown_of_unattempted
    (unattempted : ¬ (0 < p.lastProbeAttempt ∧ now - p.lastProbeAttempt ≤ staleAfter)) :
    clusterDown p now staleAfter = true ↔ 0 < p.status.lastHandshakeTime ∧
      ¬ (0 < p.status.lastHandshakeTime ∧ now - p.status.lastHandshakeTime ≤ staleAfter) := by
  rw [clusterDown, if_neg not_error, if_neg fun probed => unattempted probed.2]
  split
  case isTrue seen => simp only [seen, true_and, not_le, decide_eq_true_eq]
  case isFalse unseen => simp only [unseen, false_and, Bool.false_eq_true]

end Down

/-- A peer is down when it is in error, or observed and not alive. -/
theorem clusterDown_iff {now : Int} (positive : 0 < now) (p : ProbedPeer) :
    clusterDown p now staleHandshakeSeconds = true ↔
      p.status.phase = .error ∨ ¬ Alive now p ∧
        (Recent now p.lastProbeAttempt ∨ 0 < p.status.lastHandshakeTime) := by
  by_cases failed : p.status.phase = .error
  · rw [clusterDown, if_pos failed]
    exact iff_of_true rfl (.inl failed)
  · rw [or_iff_right failed, Alive]
    by_cases attempted : Recent now p.lastProbeAttempt
    · rw [clusterDown_of_attempted failed positive attempted]
      simp only [attempted, true_and, not_true_eq_false, false_and, or_false, true_or, and_true]
      rfl
    · rw [clusterDown_of_unattempted failed attempted, and_comm]
      simp only [attempted, false_and, not_false_eq_true, true_and, false_or]
      rfl

theorem mem_downClusters {peers : List ProbedPeer} (named : ∀ p ∈ peers, p.spec.clusterID ≠ [])
    {now staleAfter : Int} {c : Str} :
    c ∈ downClusters peers now staleAfter ↔
      ∃ p ∈ peers, p.spec.clusterID = c ∧ clusterDown p now staleAfter = true := by
  simp only [downClusters, List.mem_map, List.mem_filter, decide_eq_true_eq]
  constructor
  · rintro ⟨p, ⟨listed, -, down⟩, same⟩
    exact ⟨p, listed, same, down⟩
  · rintro ⟨p, listed, same, down⟩
    exact ⟨p, ⟨listed, named p listed, down⟩, same⟩

/-- The clusters whose backends are evicted are those in error and those that the connectivity
report of the same moment calls not live, provided that they were probed recently or have handshaked
before. -/
theorem failover_follows_report (go : Runtime SnapshotSite) (rows signals : Runtime Unit)
    (in_ : SnapshotInputs) (peers : List ProbedPeer)
    (distinct : (peers.map fun p => p.spec.clusterID).Nodup)
    (named : ∀ p ∈ peers, p.spec.clusterID ≠ []) (positive : 0 < in_.now) (c : Str) :
    c ∈ downClusters peers in_.now staleHandshakeSeconds ↔
      ∃ p ∈ peers, p.spec.clusterID = c ∧
        (p.status.phase = .error ∨
          (∃ s ∈ (fromSnapshot rows signals (observed go in_ peers)).signals,
            s.cluster = c ∧ s.tunnelLive = false) ∧
          ((∃ record ∈ (observed go in_ peers).peers,
              record.clusterID = c ∧ record.probed = true) ∨
            0 < p.status.lastHandshakeTime)) := by
  rw [mem_downClusters named]
  refine exists_congr fun p => and_congr_right fun listed => and_congr_right fun same => ?_
  subst same
  have reported : (∃ s ∈ (fromSnapshot rows signals (observed go in_ peers)).signals,
      s.cluster = p.spec.clusterID ∧ s.tunnelLive = false) ↔ ¬ Alive in_.now p := by
    have per_signal := fun s => @mem_signals_observed go rows signals in_ peers distinct positive p
      listed s
    constructor
    · rintro ⟨s, in_report, same, dead⟩
      obtain ⟨row, -, -, rfl⟩ := (per_signal s).mp ⟨in_report, same⟩
      simpa using dead
    · intro dead
      obtain ⟨row, in_matrix, same⟩ := @exists_row_of_peer go rows in_ peers p listed
      obtain ⟨in_report, cluster_eq⟩ := (per_signal _).mpr ⟨row, in_matrix, same, rfl⟩
      exact ⟨_, in_report, cluster_eq, by simp [dead]⟩
  have probed : (∃ record ∈ (observed go in_ peers).peers,
      record.clusterID = p.spec.clusterID ∧ record.probed = true) ↔
        Recent in_.now p.lastProbeAttempt := by
    have own := @probed_observe in_.now (recordOf p) positive
    constructor
    · rintro ⟨record, in_snapshot, same, is_probed⟩
      obtain ⟨q, q_listed, rfl⟩ := mem_peers_observed.mp in_snapshot
      obtain rfl : q = p := List.inj_on_of_nodup_map distinct q_listed listed same
      exact own.mp is_probed
    · intro recently
      exact ⟨_, mem_peers_observed.mpr ⟨p, listed, rfl⟩, rfl, own.mpr recently⟩
  rw [clusterDown_iff positive, reported, probed]

/-- At time 1000: a peer in error, one with failing probes, one with an old handshake, one with a
future one and one without any observation. -/
def mixedPeers : List ProbedPeer :=
  [observedPeer "a" .error 999 0 0, observedPeer "b" .connected 999 990 600,
    observedPeer "c" .connected 600 0 0, observedPeer "d" .connected 1200 0 0,
    observedPeer "e" .pending 0 (-5) 0]

theorem failover_follows_report_mixed :
    downClusters mixedPeers 1000 staleHandshakeSeconds = [str "a", str "b", str "c"] ∧
      ∃ p ∈ mixedPeers, p.spec.clusterID = str "b" ∧
        (p.status.phase = .error ∨ (∃ s ∈ (fromSnapshot (.stable Unit) (.stable Unit)
              (observed (.stable SnapshotSite) (bareInputs 1000) mixedPeers)).signals,
            s.cluster = str "b" ∧ s.tunnelLive = false) ∧
          ((∃ record ∈ (observed (.stable SnapshotSite) (bareInputs 1000) mixedPeers).peers,
              record.clusterID = str "b" ∧ record.probed = true) ∨
            0 < p.status.lastHandshakeTime)) := by
  have down : downClusters mixedPeers 1000 staleHandshakeSeconds = [str "a", str "b", str "c"] := by
    decide
  refine ⟨down, (failover_follows_report (.stable SnapshotSite) (.stable Unit) (.stable Unit)
    (bareInputs 1000) mixedPeers (by decide) (by decide) (by decide) (str "b")).mp ?_⟩
  rw [show (bareInputs 1000).now = 1000 from rfl, down]
  decide

end DatawerxMesh.Controllers
