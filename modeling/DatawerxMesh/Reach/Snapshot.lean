import DatawerxMesh.Controllers.MeshNetworkPolicy
import DatawerxMesh.Reach.Plan
import DatawerxMesh.Topology.Conflicts

/-!
# The snapshot and its readers

`internal/meshstate/gather.go`, `pkg/verify/snapshot.go`, `pkg/reach/snapshot.go` and
`internal/cli/mesh/policy.go`, with the fields that the reachability matrix reads.
-/

namespace DatawerxMesh.Reach

open Go Addressing Meshfw Controllers DatawerxMesh.Topology

/-- A peer as it was observed. -/
structure PeerSnapshot where
  clusterID : Str
  phase : MeshPeerPhase
  podCIDRs : List Str
  serviceCIDRs : List Str
  deriving DecidableEq

/-- A conflict that was found. -/
structure ConflictReport where
  clusterID : Str
  reason : Str
  deriving DecidableEq

/-- Clusters and ranges. -/
structure PolicySourceSnapshot where
  clusterIDs : List Str
  cidrs : List Str
  deriving DecidableEq

/-- A port of a policy. -/
structure PortSnapshot where
  protocol : Str
  port : Int
  deriving DecidableEq

/-- Sources and ports. -/
structure PolicyIngressSnapshot where
  from_ : List PolicySourceSnapshot
  ports : List PortSnapshot
  deriving DecidableEq

/-- A policy as it was observed. -/
structure PolicySnapshot where
  name : Str
  destinations : List Str
  ingress : List PolicyIngressSnapshot
  deriving DecidableEq

/-- The view of a cluster. -/
structure Snapshot where
  peers : List PeerSnapshot
  conflicts : List ConflictReport
  policies : List PolicySnapshot
  deriving DecidableEq

/-- The places where `BuildSnapshot` sorts by a field that may repeat. -/
inductive Site where
  | peers
  | policies
  deriving DecidableEq

/-- The record of a peer in the snapshot. -/
def recordOf (p : MeshPeer) : PeerSnapshot where
  clusterID := p.spec.clusterID
  phase := p.status.phase
  podCIDRs := p.spec.podCIDRs
  serviceCIDRs := p.spec.serviceCIDRs

/-- What the conflict detection sees of a peer. -/
def identityOf (p : MeshPeer) : PeerIdentity := .of p.spec

/-- `gatherPeers`: the records of the snapshot and the identities for the conflict detection. -/
def gatherPeers (list : List MeshPeer) : List PeerSnapshot × List PeerIdentity :=
  (list.map recordOf, list.map identityOf)

/-- The conflicts among the peers. -/
def topologyConflicts (quote : Str → Str) (identities : List PeerIdentity) : List ConflictReport :=
  (detectTopologyConflicts quote identities).map fun c => ⟨c.clusterID, c.reason⟩

/-- `policyIngress`, with the selectors in `sortedCopy` order. -/
def policyIngress (rules : List MeshIngressRule) : List PolicyIngressSnapshot :=
  rules.map fun r => {
    from_ := r.from_.map fun f => ⟨sortStrings f.clusterIDs, sortStrings f.cidrs⟩
    ports := r.ports.map fun pt => ⟨pt.protocol, pt.port⟩ }

/-- The observed policies. -/
def gatherPolicies (list : List MeshNetworkPolicy) : List PolicySnapshot :=
  list.map fun p => ⟨p.name, p.spec.destinations, policyIngress p.spec.ingress⟩

/-- `lessConflict` of the snapshot. -/
def lessReport : ConflictReport → ConflictReport → Bool :=
  Sorting.byField ConflictReport.clusterID less fun a b => less a.reason b.reason

/-- The parts, sorted. -/
def buildSnapshot (go : Runtime Site) (peers : List PeerSnapshot) (conflicts : List ConflictReport)
    (policies : List PolicySnapshot) : Snapshot where
  peers := go.sortSlice .peers (fun a b => less a.clusterID b.clusterID) peers
  conflicts := Sorting.sort lessReport conflicts
  policies := go.sortSlice .policies (fun a b => less a.name b.name) policies

/-- `meshstate.Snapshot` of the listed objects. -/
def snapshotOf (go : Runtime Site) (quote : Str → Str) (peers : List MeshPeer)
    (policies : List MeshNetworkPolicy) : Snapshot :=
  let (records, identities) := gatherPeers peers
  buildSnapshot go records (topologyConflicts quote identities) (gatherPolicies policies)

/-- The input of the compiler. -/
def policiesFromSnapshot (in_ : List PolicySnapshot) : List Policy :=
  in_.map fun p => {
    destinations := p.destinations
    ingress := p.ingress.map fun ing => {
      from_ := ing.from_.map fun f => ⟨f.clusterIDs, f.cidrs⟩
      ports := ing.ports.map fun pt => ⟨pt.protocol, pt.port⟩ } }

/-- All ranges of a peer. -/
def PeerSnapshot.cidrs (p : PeerSnapshot) : List Str := p.podCIDRs ++ p.serviceCIDRs

/-- The input that `FromSnapshot` builds.  A later record of a cluster replaces an earlier one. -/
def snapshotInput (snap : Snapshot) : Input where
  peers := snap.peers.map fun p => {
    clusterID := p.clusterID
    connected := p.phase = .connected
    conflict := snap.conflicts.any fun c => c.clusterID == p.clusterID
    cidrs := p.cidrs }
  policies := policiesFromSnapshot snap.policies
  clusterCIDRs := snap.peers.foldl (fun cidrs p => Function.update cidrs p.clusterID p.cidrs)
    fun _ => []

/-- The matrix of a snapshot. -/
def fromSnapshot (go : Runtime Unit) (snap : Snapshot) : Matrix := plan go (snapshotInput snap)

/-- The ruleset that `FromSnapshot` compiles. -/
def snapshotRuleset (snap : Snapshot) : Ruleset :=
  buildFirewall (snapshotInput snap).policies (snapshotInput snap).clusterCIDRs

/-- `peerCIDRs` of the command line. -/
def peerCIDRs (peers : List MeshPeer) : Str → List Str :=
  peers.foldl (fun m p => Function.update m p.spec.clusterID p.spec.allCIDRs) fun _ => []

/-- A policy as the compiler reads it. -/
def toFWPolicy (p : MeshNetworkPolicy) : Policy where
  destinations := p.spec.destinations
  ingress := p.spec.ingress.map fun ing => {
    from_ := ing.from_.map fun f => ⟨f.clusterIDs, f.cidrs⟩
    ports := ing.ports.map fun pt => ⟨pt.protocol, pt.port⟩ }

/-- The rules that the impact analysis compares. -/
def impactRuleset (policies : List MeshNetworkPolicy) (peers : List MeshPeer) : Ruleset :=
  buildFirewall (policies.map toFWPolicy) (peerCIDRs peers)

end DatawerxMesh.Reach
