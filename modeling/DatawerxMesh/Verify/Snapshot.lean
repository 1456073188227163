import DatawerxMesh.Reach.Snapshot

/-!
# Snapshots and their health

`pkg/verify`: the checks that `Build` makes of a read-only view of a cluster, and `BuildSnapshot`
with the parts that the checks, the diagnosis and the connectivity report read.
-/

namespace DatawerxMesh.Verify

open Go Controllers

/-- `Status`. -/
inductive CheckStatus where
  | pass
  | warn
  | fail
  deriving DecidableEq

/-- A check and its result. -/
structure Check where
  name : Str
  status : CheckStatus
  detail : Str
  deriving DecidableEq

/-- What the checks read of a peer. -/
structure PeerInfo where
  clusterID : Str
  phase : MeshPeerPhase
  lastHandshake : Int
  deriving DecidableEq

/-- What the checks read of an export. -/
structure ExportInfo where
  namespace_ : Str
  name : Str
  valid : Bool
  deriving DecidableEq

/-- What the checks read. -/
structure Inputs where
  requiredCRDs : List Str
  presentCRDs : Str → Bool
  agentFound : Bool
  agentDesired : Int
  agentReady : Int
  peers : List PeerInfo
  exports : List ExportInfo
  importsClusterSetIP : Nat
  importsHeadless : Nat
  now : Int

/-- The age of a stale handshake. -/
def staleHandshakeSeconds : Int := 300

variable (in_ : Inputs)

/-- The resources are installed. -/
def checkCRDs : List Check :=
  let missing := sortStrings (in_.requiredCRDs.filter fun c => !in_.presentCRDs c)
  let total := itoa in_.requiredCRDs.length
  if missing = [] then [⟨"CRDs installed", .pass, total ++ "/" ++ total ++ " present"⟩]
  else [⟨"CRDs installed", .fail, "missing: " ++ join ", " missing⟩]

/-- The agents run. -/
def checkAgent : List Check :=
  let ready := itoaInt in_.agentReady ++ "/" ++ itoaInt in_.agentDesired ++ " pods ready"
  if in_.agentFound = false then [⟨"Agent DaemonSet", .fail, "not found"⟩]
  else if in_.agentDesired = 0 then
    [⟨"Agent DaemonSet", .warn, "0 scheduled pods (no matching nodes?)"⟩]
  else if in_.agentReady = in_.agentDesired then [⟨"Agent DaemonSet", .pass, ready⟩]
  else [⟨"Agent DaemonSet", .fail, ready⟩]

/-- The peers are connected. -/
def checkPeers : List Check :=
  if in_.peers = [] then [⟨"Mesh peers", .warn, "no MeshPeers configured"⟩]
  else
    let connected := in_.peers.countP fun p => p.phase = .connected
    let errored := in_.peers.countP fun p => p.phase = .error
    let pending := in_.peers.countP fun p => p.phase ≠ .connected ∧ p.phase ≠ .error
    let detail := itoa connected ++ " connected, " ++ itoa pending ++ " pending, " ++
      itoa errored ++ " error"
    [⟨"Mesh peers",
      if 0 < errored then .fail else if 0 < pending then .warn else .pass, detail⟩]

/-- The tunnels are alive. -/
def checkHandshakes : List Check :=
  let connected := in_.peers.filter fun p => p.phase = .connected
  if in_.now ≤ 0 ∨ connected = [] then []
  else
    let stale := sortStrings ((connected.filter fun p =>
      p.lastHandshake ≤ 0 ∨ in_.now - p.lastHandshake > staleHandshakeSeconds).map
        PeerInfo.clusterID)
    let total := itoa connected.length
    if stale ≠ [] then
      [⟨"Tunnel handshakes", .warn, itoa stale.length ++ "/" ++ total ++
        " stale (idle or unreachable): " ++ join ", " stale⟩]
    else [⟨"Tunnel handshakes", .pass, total ++ "/" ++ total ++ " recent"⟩]

/-- The exports are valid. -/
def checkExports : List Check :=
  if in_.exports = [] then [⟨"Service exports", .pass, "none"⟩]
  else
    let invalid := sortStrings ((in_.exports.filter fun e => !e.valid).map fun e =>
      e.namespace_ ++ "/" ++ e.name)
    if invalid ≠ [] then
      [⟨"Service exports", .warn,
        itoa invalid.length ++ " invalid: " ++ join ", " invalid⟩]
    else [⟨"Service exports", .pass, itoa in_.exports.length ++ " valid"⟩]

/-- The checks of the report that `Build` makes. -/
def build : List Check :=
  checkCRDs in_ ++ checkAgent in_ ++ checkPeers in_ ++ checkHandshakes in_ ++ checkExports in_ ++
    [⟨"Service imports", .pass, itoa in_.importsClusterSetIP ++ " ClusterSetIP, " ++
      itoa in_.importsHeadless ++ " headless"⟩]

/-- `PeerSnapshot`, as an extension of the part that the matrix reads. -/
structure PeerRecord extends Reach.PeerSnapshot where
  name : Str
  endpoint : Str
  publicKey : Str
  lastHandshake : Int
  handshakeAge : Int
  lastProbeAttempt : Int
  lastProbe : Int
  probed : Bool
  probeAge : Int
  message : Str
  observedGeneration : Int
  deriving DecidableEq

/-- An export as it was observed. -/
structure ExportSnapshot where
  namespace_ : Str
  name : Str
  valid : Bool
  conflict : Bool
  message : Str
  deriving DecidableEq

/-- An import as it was observed. -/
structure ImportSnapshot where
  namespace_ : Str
  name : Str
  type_ : Str
  deriving DecidableEq

/-- `PolicySnapshot`, as an extension of the part that the matrix reads. -/
structure PolicyRecord extends Reach.PolicySnapshot where
  phase : MeshNetworkPolicyPhase
  message : Str
  deriving DecidableEq

/-- An event as it was observed. -/
structure EventSnapshot where
  type_ : Str
  reason : Str
  message : Str
  object : Str
  count : Int
  lastSeen : Int
  deriving DecidableEq

/-- What a snapshot is made of. -/
structure SnapshotInputs where
  now : Int
  requiredCRDs : List Str
  presentCRDs : Str → Bool
  agentFound : Bool
  agentDesired : Int
  agentReady : Int
  peers : List PeerRecord
  conflicts : List Reach.ConflictReport
  exports : List ExportSnapshot
  imports : List ImportSnapshot
  policies : List PolicyRecord
  events : List EventSnapshot

/-- The view of a cluster. -/
structure Snapshot where
  apiVersion : Str
  kind : Str
  generatedAt : Int
  health : List Check
  peers : List PeerRecord
  conflicts : List Reach.ConflictReport
  exports : List ExportSnapshot
  imports : List ImportSnapshot
  policies : List PolicyRecord
  events : List EventSnapshot
  deriving DecidableEq

/-- The places where `BuildSnapshot` sorts. -/
inductive SnapshotSite where
  | peers
  | exports
  | imports
  | policies
  | events
  deriving DecidableEq

/-- The part that the checks read. -/
def SnapshotInputs.healthInputs (in_ : SnapshotInputs) : Inputs where
  requiredCRDs := in_.requiredCRDs
  presentCRDs := in_.presentCRDs
  agentFound := in_.agentFound
  agentDesired := in_.agentDesired
  agentReady := in_.agentReady
  now := in_.now
  peers := in_.peers.map fun p => ⟨p.clusterID, p.phase, p.lastHandshake⟩
  exports := in_.exports.map fun e => ⟨e.namespace_, e.name, e.valid⟩
  importsClusterSetIP := in_.imports.countP fun im => im.type_ = str "ClusterSetIP"
  importsHeadless := in_.imports.countP fun im => im.type_ = str "Headless"

/-- `handshakeAge`: negative when it is unknown, and never negative for a time in the future. -/
def handshakeAge (now last : Int) : Int :=
  if now ≤ 0 ∨ last ≤ 0 then -1 else if 0 < now - last then now - last else 0

/-- `shortKey` of the snapshot. -/
def shortKey (k : Str) : Str := if k.length ≤ 8 then k else k.take 8 ++ "…"

/-- The loop over the peers in `BuildSnapshot`. -/
def observe (now : Int) (p : PeerRecord) : PeerRecord :=
  { p with
    publicKey := shortKey p.publicKey
    handshakeAge := handshakeAge now p.lastHandshake
    probeAge := handshakeAge now p.lastProbe
    probed := 0 < now ∧ 0 < p.lastProbeAttempt ∧ now - p.lastProbeAttempt ≤ staleHandshakeSeconds }

/-- The order of namespaced names. -/
def lessNamespaced (ns₁ n₁ ns₂ n₂ : Str) : Bool := if ns₁ ≠ ns₂ then less ns₁ ns₂ else less n₁ n₂

/-- The order of events. -/
def lessEvent : EventSnapshot → EventSnapshot → Bool :=
  Sorting.byField EventSnapshot.object less <| Sorting.byField EventSnapshot.reason less
    fun a b => less a.message b.message

/-- The parts, sorted and checked. -/
def buildSnapshot (go : Runtime SnapshotSite) (in_ : SnapshotInputs) : Snapshot where
  apiVersion := str "mesh.datawerx.io/snapshot/v1alpha1"
  kind := str "MeshSnapshot"
  generatedAt := in_.now
  health := build in_.healthInputs
  peers := go.sortSlice .peers (fun a b => less a.clusterID b.clusterID)
    (in_.peers.map (observe in_.now))
  conflicts := Sorting.sort Reach.lessReport in_.conflicts
  exports := go.sortSlice .exports
    (fun a b => lessNamespaced a.namespace_ a.name b.namespace_ b.name) in_.exports
  imports := go.sortSlice .imports
    (fun a b => lessNamespaced a.namespace_ a.name b.namespace_ b.name) in_.imports
  policies := go.sortSlice .policies (fun a b => less a.name b.name) in_.policies
  events := go.sortSlice .events lessEvent in_.events

/-- The records of `gatherPeers`; the ages are left to `BuildSnapshot`. -/
def gatherPeers (list : List ProbedPeer) : List PeerRecord :=
  list.map fun p => {
    toPeerSnapshot := Reach.recordOf p.toMeshPeer
    name := p.name
    endpoint := p.spec.endpoint
    publicKey := p.spec.publicKey
    lastHandshake := p.status.lastHandshakeTime
    lastProbeAttempt := p.lastProbeAttempt
    lastProbe := p.lastProbeTime
    message := p.status.message
    observedGeneration := p.status.observedGeneration
    handshakeAge := 0
    probed := false
    probeAge := 0 }

/-- The part of the snapshot that the matrix reads. -/
def Snapshot.reach (snap : Snapshot) : Reach.Snapshot where
  peers := snap.peers.map PeerRecord.toPeerSnapshot
  conflicts := snap.conflicts
  policies := snap.policies.map PolicyRecord.toPolicySnapshot

/-- The matrix reads the snapshot that some run builds from its part of the objects. -/
theorem exists_reach_eq_snapshotOf (go : Runtime SnapshotSite) {in_ : SnapshotInputs}
    (quote : Str → Str) {peers : List ProbedPeer} {policies : List MeshNetworkPolicy}
    (peers_eq : in_.peers = gatherPeers peers)
    (conflicts_eq : in_.conflicts = Reach.topologyConflicts quote
      (Reach.gatherPeers (peers.map ProbedPeer.toMeshPeer)).2)
    (policies_eq : in_.policies.map PolicyRecord.toPolicySnapshot = Reach.gatherPolicies policies) :
    ∃ go', (buildSnapshot go in_).reach =
      Reach.snapshotOf go' quote (peers.map ProbedPeer.toMeshPeer) policies := by
  have by_cluster : Sorting.Orders (fun a b : PeerRecord => less a.clusterID b.clusterID)
      (fun p => p.clusterID) := less_orders.onField
  have by_name : Sorting.Orders (fun a b : PolicyRecord => less a.name b.name) (fun p => p.name) :=
    less_orders.onField
  have records : (in_.peers.map (observe in_.now)).map PeerRecord.toPeerSnapshot =
      (Reach.gatherPeers (peers.map ProbedPeer.toMeshPeer)).1 := by
    simp only [peers_eq, gatherPeers, Reach.gatherPeers, List.map_map]
    rfl
  -- Runs may order records alike that `Reach` cannot tell apart.
  have peers_arranged : Sorting.Arranges
      (fun a b : Reach.PeerSnapshot => less a.clusterID b.clusterID)
      (Reach.gatherPeers (peers.map ProbedPeer.toMeshPeer)).1
      (buildSnapshot go in_).reach.peers :=
    records ▸ Sorting.Arranges.map_field (go.sortSlice_arranges .peers by_cluster _)
  have policies_arranged : Sorting.Arranges
      (fun a b : Reach.PolicySnapshot => less a.name b.name) (Reach.gatherPolicies policies)
      (buildSnapshot go in_).reach.policies :=
    policies_eq ▸ Sorting.Arranges.map_field (go.sortSlice_arranges .policies by_name _)
  obtain ⟨first, first_eq, -⟩ :=
    Runtime.exists_sortSlice_eq (.stable Reach.Site) .peers peers_arranged
  obtain ⟨go', policies_choice, others⟩ :=
    Runtime.exists_sortSlice_eq first .policies policies_arranged
  refine ⟨go', ?_⟩
  simp only [Reach.snapshotOf, Reach.buildSnapshot, policies_choice, others .peers (by decide),
    first_eq, ← conflicts_eq]
  rfl

theorem mem_peers_buildSnapshot {go : Runtime SnapshotSite} {in_ : SnapshotInputs}
    {record : PeerRecord} :
    record ∈ (buildSnapshot go in_).peers ↔ ∃ p ∈ in_.peers, observe in_.now p = record := by
  have orders : Sorting.Orders (fun a b : PeerRecord => less a.clusterID b.clusterID)
      (fun p => p.clusterID) := less_orders.onField
  exact (go.sortSlice_arranges .peers orders _).perm.mem_iff.trans List.mem_map

/-- A time lies in the window before the clock, or after the clock. -/
def Recent (now last : Int) : Prop := 0 < last ∧ now - last ≤ staleHandshakeSeconds

instance (now last : Int) : Decidable (Recent now last) := inferInstanceAs (Decidable (_ ∧ _))

theorem handshakeAge_neg_iff {now last : Int} (positive : 0 < now) :
    handshakeAge now last < 0 ↔ last ≤ 0 := by
  unfold handshakeAge
  split
  · omega
  · split <;> omega

theorem handshakeAge_in_range_iff {now last : Int} (positive : 0 < now) :
    (0 ≤ handshakeAge now last ∧ handshakeAge now last ≤ staleHandshakeSeconds) ↔
      Recent now last := by
  unfold handshakeAge Recent staleHandshakeSeconds
  split
  · omega
  · split <;> omega

theorem probed_observe {now : Int} {p : PeerRecord} (positive : 0 < now) :
    (observe now p).probed = true ↔ Recent now p.lastProbeAttempt := by
  simp [observe, positive, Recent]

end DatawerxMesh.Verify
