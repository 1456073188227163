import DatawerxMesh.Slo.Report
import DatawerxMesh.Verify.Diagnose

/-!
# The connectivity report and the diagnosis

The report trusts recent probes over handshakes and the diagnosis knows handshakes only.
-/

namespace DatawerxMesh.Slo

open Go DatawerxMesh.Verify

section Observed

variable {go : Runtime SnapshotSite} {rows signals : Runtime Unit} {in_ : SnapshotInputs}
  {peers : List ProbedPeer}

theorem diagnosed_iff (quote : Str → Str)
    (distinct : (peers.map fun p => p.spec.clusterID).Nodup) (positive : 0 < in_.now)
    {p : ProbedPeer} (listed : p ∈ peers) (connected : p.status.phase = .connected) :
    (∃ f ∈ diagnose quote (observed go in_ peers), f.IsTunnel p.spec.clusterID) ↔
      ¬ Recent in_.now p.status.lastHandshakeTime := by
  rw [exists_isTunnel_iff]
  have own := staleTunnel_observe positive (recordOf p)
  constructor
  · rintro ⟨record, in_snapshot, same, -, stale⟩
    obtain ⟨q, q_listed, rfl⟩ := mem_peers_observed.mp in_snapshot
    obtain rfl : q = p := List.inj_on_of_nodup_map distinct q_listed listed same
    exact own.mp stale
  · intro late
    exact ⟨_, mem_peers_observed.mpr ⟨p, listed, rfl⟩, rfl, connected, own.mpr late⟩

theorem impaired_iff (distinct : (peers.map fun p => p.spec.clusterID).Nodup)
    (positive : 0 < in_.now) {p : ProbedPeer} (listed : p ∈ peers)
    (reachable : ∃ row ∈ (Reach.fromSnapshot rows (observed go in_ peers).reach).reachabilities,
      row.cluster = p.spec.clusterID ∧ row.status = .reachable) :
    (∃ s ∈ (fromSnapshot rows signals (observed go in_ peers)).signals,
        s.cluster = p.spec.clusterID ∧ s.verdict = .impaired) ↔ ¬ Alive in_.now p := by
  have per_signal := fun s => @mem_signals_observed go rows signals in_ peers distinct positive p
    listed s
  constructor
  · rintro ⟨s, in_report, same, impaired⟩
    obtain ⟨row, -, -, rfl⟩ := (per_signal s).mp ⟨in_report, same⟩
    exact of_decide_eq_false ((signalFor_impaired_iff _ _).mp impaired).2
  · intro dead
    obtain ⟨row, in_matrix, same, status⟩ := reachable
    obtain ⟨in_report, cluster_eq⟩ := (per_signal _).mpr ⟨row, in_matrix, same, rfl⟩
    exact ⟨_, in_report, cluster_eq,
      (signalFor_impaired_iff _ _).mpr ⟨status, decide_eq_false dead⟩⟩

end Observed

/-- The report and the diagnosis agree about a connected peer that should be reachable exactly when
its recent probes, if there are any, tell the same as its handshakes. -/
theorem report_diagnosis_agree_iff (go : Runtime SnapshotSite) (rows signals : Runtime Unit)
    (quote : Str → Str) (in_ : SnapshotInputs) (peers : List ProbedPeer)
    (distinct : (peers.map fun p => p.spec.clusterID).Nodup) (positive : 0 < in_.now)
    (p : ProbedPeer) (listed : p ∈ peers) (connected : p.status.phase = .connected)
    (reachable : ∃ row ∈ (Reach.fromSnapshot rows (observed go in_ peers).reach).reachabilities,
      row.cluster = p.spec.clusterID ∧ row.status = .reachable) :
    ((∃ s ∈ (fromSnapshot rows signals (observed go in_ peers)).signals,
        s.cluster = p.spec.clusterID ∧ s.verdict = .impaired) ↔
      ∃ f ∈ diagnose quote (observed go in_ peers), f.IsTunnel p.spec.clusterID) ↔
    (Recent in_.now p.lastProbeAttempt →
      (Recent in_.now p.lastProbeTime ↔ Recent in_.now p.status.lastHandshakeTime)) := by
  rw [impaired_iff distinct positive listed reachable,
    diagnosed_iff quote distinct positive listed connected, not_iff_not, Alive]
  by_cases recently : Recent in_.now p.lastProbeAttempt
  · simp [recently]
  · simp [recently]

/-- The signals of one peer. -/
def signalsOf (p : ProbedPeer) : List Signal :=
  (fromSnapshot (.stable Unit) (.stable Unit)
    (observed (.stable SnapshotSite) (bareInputs 1000) [p])).signals

/-- The findings on one peer. -/
def findingsOf (p : ProbedPeer) : List Finding :=
  diagnose id (observed (.stable SnapshotSite) (bareInputs 1000) [p])

theorem report_diagnosis_agree_unprobed :
    (∃ s ∈ signalsOf (observedPeer "east" .connected 600 0 0),
        s.cluster = "east" ∧ s.verdict = .impaired) ∧
      ∃ f ∈ findingsOf (observedPeer "east" .connected 600 0 0), f.IsTunnel "east" := by
  have agree := (report_diagnosis_agree_iff (.stable SnapshotSite) (.stable Unit) (.stable Unit) id
    (bareInputs 1000) [observedPeer "east" .connected 600 0 0] (by decide) (by decide) _
    (List.mem_singleton_self _) rfl (by decide)).mpr (fun probed => absurd probed (by decide))
  have impaired : ∃ s ∈ signalsOf (observedPeer "east" .connected 600 0 0),
      s.cluster = "east" ∧ s.verdict = .impaired := by decide
  exact ⟨impaired, agree.mp impaired⟩

/-- A quiet tunnel that answers probes is healthy in the report and may be down in the diagnosis,
and a tunnel that handshakes and answers no probes is impaired in the report and not diagnosed. -/
theorem probes_split_report_and_diagnosis :
    let quiet := observedPeer (str "east") .connected 600 990 990
    let deaf := observedPeer (str "east") .connected 990 990 0
    (signalsOf quiet).map Signal.verdict = [.healthy] ∧
      (findingsOf quiet).map Finding.title = [str "Tunnel to east may be down"] ∧
      (signalsOf deaf).map Signal.verdict = [.impaired] ∧
      (findingsOf deaf).map Finding.title = [] ∧
      (¬ ((∃ s ∈ signalsOf quiet, s.cluster = str "east" ∧ s.verdict = .impaired) ↔
        ∃ f ∈ findingsOf quiet, f.IsTunnel (str "east"))) ∧
      ¬ ((∃ s ∈ signalsOf deaf, s.cluster = str "east" ∧ s.verdict = .impaired) ↔
        ∃ f ∈ findingsOf deaf, f.IsTunnel (str "east")) := by
  simp only [Finding.IsTunnel]
  decide

end DatawerxMesh.Slo
