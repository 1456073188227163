import DatawerxMesh.Meshfw.Sources
import DatawerxMesh.Reach.Snapshot

/-!
# The analyzers and the programmed firewall

The policy reconciler lets a cluster ID stand for the CIDRs of all its peers, the matrix and the
impact analysis for those of the last one.
-/

namespace DatawerxMesh.Reach

open Go Addressing Meshfw Controllers Accumulation DatawerxMesh.Topology List

/-- The CIDRs of the last entry for a cluster. -/
def lastCIDRs (entries : List (Str × List Str)) (id : Str) : List Str :=
  match (entries.filter fun entry => entry.1 = id).getLast? with
  | some entry => entry.2
  | none => []

theorem foldl_update_eq (entries : List (Str × List Str)) :
    entries.foldl (fun m entry => Function.update m entry.1 entry.2) (fun _ => []) =
      lastCIDRs entries := by
  funext id
  induction entries using List.reverseRecOn with
  | nil => rfl
  | append_singleton entries entry ih =>
    rw [foldl_append, foldl_cons, foldl_nil, lastCIDRs, filter_append]
    by_cases same : entry.1 = id
    · subst same
      simp
    · rw [Function.update_of_ne (Ne.symm same), ih, lastCIDRs]
      simp [same]

/-- The ranges of the objects. -/
def peerEntries (peers : List MeshPeer) : List (Str × List Str) :=
  peers.map fun p => (p.spec.clusterID, p.spec.allCIDRs)

theorem peerCIDRs_eq (peers : List MeshPeer) : peerCIDRs peers = lastCIDRs (peerEntries peers) := by
  rw [← foldl_update_eq, peerEntries, foldl_map]
  rfl

/-- The ranges of the snapshot. -/
def recordEntries (records : List PeerSnapshot) : List (Str × List Str) :=
  records.map fun p => (p.clusterID, p.cidrs)

theorem snapshotInput_clusterCIDRs (snap : Snapshot) :
    (snapshotInput snap).clusterCIDRs = lastCIDRs (recordEntries snap.peers) := by
  rw [← foldl_update_eq, recordEntries, foldl_map]
  rfl

variable (policies : List MeshNetworkPolicy)

theorem map_toFWPolicy : policies.map toFWPolicy = toPolicies policies := rfl

theorem policiesFromSnapshot_shuffled (go : Runtime Site) (policies : List MeshNetworkPolicy) :
    Shuffle Policy.Shuffled
      (policiesFromSnapshot (go.sortSlice .policies (fun a b => less a.name b.name)
        (gatherPolicies policies))) (toPolicies policies) := by
  have orders : Sorting.Orders (fun a b : PolicySnapshot => less a.name b.name)
      PolicySnapshot.name := less_orders.onField
  have arranged := go.sortSlice_arranges .policies orders (gatherPolicies policies)
  refine ⟨policiesFromSnapshot (gatherPolicies policies), arranged.perm.map _, ?_⟩
  rw [policiesFromSnapshot, gatherPolicies, toPolicies, map_map, forall₂_map_left_iff,
    forall₂_map_right_iff, forall₂_same]
  intro p _
  refine ⟨.refl _, _, .refl _, ?_⟩
  -- rule by rule, the selectors are sorted copies and the ports the same
  simp only [Function.comp_apply, policyIngress, map_map, forall₂_map_left_iff,
    forall₂_map_right_iff, forall₂_same]
  intro ing _
  refine ⟨⟨_, .refl _, ?_⟩, .refl _⟩
  simp only [forall₂_map_left_iff, forall₂_map_right_iff, forall₂_same, Function.comp_apply]
  intro selector _
  exact ⟨Sorting.sort_perm less _, Sorting.sort_perm less _⟩

/-- Each analyzer compiles the policies with a map that keeps the last entries. -/
theorem snapshotRuleset_eq (go : Runtime Site) (quote : Str → Str) (peers : List MeshPeer)
    (policies : List MeshNetworkPolicy) :
    snapshotRuleset (snapshotOf go quote peers policies) = buildFirewall (toPolicies policies)
        (lastCIDRs (recordEntries (snapshotOf go quote peers policies).peers)) := by
  rw [snapshotRuleset, snapshotInput_clusterCIDRs]
  exact buildFirewall_shuffled (fun _ => .refl _) (policiesFromSnapshot_shuffled go policies)

theorem impactRuleset_eq (peers : List MeshPeer) :
    impactRuleset policies peers =
      buildFirewall (toPolicies policies) (lastCIDRs (peerEntries peers)) := by
  rw [impactRuleset, map_toFWPolicy, peerCIDRs_eq]

/-- It makes no difference that only the last entries are kept: what the other peers of a cluster or
peers without an ID add is added otherwise as well. -/
def LastSuffices (peers : List MeshPeer) (entries : List (Str × List Str)) : Prop :=
  Compensated (toPolicies policies) (clusterCIDRs peers) (lastCIDRs entries) ∧
    Compensated (toPolicies policies) (lastCIDRs entries) (clusterCIDRs peers)

/-- Both analyzers compile the ruleset that the reconciler programs exactly when the last peers of
the cluster IDs suffice, in the order in which the snapshot sorts them and in the listed order. -/
theorem analyzers_agree_iff (go : Runtime Site) (quote : Str → Str) (peers : List MeshPeer)
    (policies : List MeshNetworkPolicy) :
    (snapshotRuleset (snapshotOf go quote peers policies) = policyRuleset policies peers ∧
      impactRuleset policies peers = policyRuleset policies peers) ↔
      LastSuffices policies peers
        (recordEntries (go.sortSlice .peers (fun a b => less a.clusterID b.clusterID)
          (gatherPeers peers).1)) ∧
      LastSuffices policies peers (peerEntries peers) := by
  have criterion : ∀ entries, buildFirewall (toPolicies policies) (lastCIDRs entries) =
      policyRuleset policies peers ↔ LastSuffices policies peers entries := by
    intro entries
    rw [policyRuleset, buildFirewall_eq_iff_compensated, LastSuffices, and_comm]
  rw [snapshotRuleset_eq, impactRuleset_eq, criterion, criterion]
  rfl

/-- Two peers of one cluster with a range each. -/
def splitCluster : List MeshPeer :=
  [peerOf "cluster-b" ["10.1.0.0/16"], peerOf "cluster-b" ["10.2.0.0/16"]]

/-- The firewall lets both ranges of the cluster in, and both analyzers know only the second. -/
theorem analyzers_miss_first_peer :
    ⟨fwChain, ["-s", "10.1.0.0/16", "-d", "10.96.5.0/24", "-j",
      "ACCEPT"]⟩ ∈ (policyRuleset [admitCluster "cluster-b" "10.96.5.0/24"]
        splitCluster).rules ∧
    snapshotRuleset (snapshotOf (.stable Site) id splitCluster
        [admitCluster "cluster-b" "10.96.5.0/24"]) =
      impactRuleset [admitCluster "cluster-b" "10.96.5.0/24"] splitCluster ∧
    impactRuleset [admitCluster "cluster-b" "10.96.5.0/24"] splitCluster ≠
      policyRuleset [admitCluster "cluster-b" "10.96.5.0/24"] splitCluster := by
  decide +kernel

end DatawerxMesh.Reach
