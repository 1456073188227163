import DatawerxMesh.Verify.Snapshot

/-!
# The diagnosis

`pkg/verify/diagnose.go`: the obvious causes that a snapshot shows, most severe first.
-/

namespace DatawerxMesh.Verify

open Go List

/-- How bad a finding is. -/
inductive Severity where
  | info
  | warning
  | critical
  deriving DecidableEq

/-- The order of severities. -/
def Severity.rank : Severity → Nat
  | .info => 0
  | .warning => 1
  | .critical => 2

/-- A problem and its remedy. -/
structure Finding where
  severity : Severity
  title : Str
  detail : Str
  signal : Str
  remedy : Str
  deriving DecidableEq

/-- The remedy of a conflict. -/
def conflictRemedy (reason : Str) : Str :=
  if contains reason "overlap" then
    str ("the two clusters reuse a range; renumber one, or enable basic NAT remap " ++
      "(DataWerx_REMAP_CIDR) to route them under virtual ranges")
  else if contains reason "public key" then
    str ("two peers advertise the same WireGuard key; regenerate one cluster's key so the " ++
      "kernel can tell them apart")
  else if contains reason "duplicate cluster ID" then
    "two peers share a clusterID; give each cluster a unique, stable ID"
  else "correct the advertised peer fields so the topology is unambiguous"

/-- The remedy of a failed peer. -/
def peerErrorRemedy (msg : Str) : Str :=
  if contains msg "dangerous" then
    str ("the peer advertised a default/loopback/link-local/multicast range that is never " ++
      "routed into the mesh; remove it from the peer's CIDRs")
  else if contains msg "overlap" || contains msg "remap" then
    str ("the peer's CIDR overlaps a local range; renumber, or enable DataWerx_REMAP_CIDR to " ++
      "route it under a virtual range")
  else if contains msg "publicKey" then
    "set spec.publicKey on the MeshPeer to the remote cluster's WireGuard public key"
  else "inspect the MeshPeer status message and correct the offending spec field"

/-- The failing checks. -/
def diagnoseHealth (s : Snapshot) : List Finding :=
  (s.health.filter fun c => c.status = .fail).map fun c => {
    severity := .critical
    title := "Health check failing: " ++ c.name
    detail := []
    signal := c.name ++ " = FAIL (" ++ c.detail ++ ")"
    remedy := str ("resolve the failing check before diagnosing peers; nothing routes until the " ++
      "agent and CRDs are healthy") }

/-- The conflicts. -/
def diagnoseConflicts (s : Snapshot) : List Finding :=
  s.conflicts.map fun c => {
    severity := .critical
    title := "Topology conflict on cluster " ++ c.clusterID
    detail := c.reason
    signal := "conflict[" ++ c.clusterID ++ "]: " ++ c.reason
    remedy := conflictRemedy c.reason }

/-- `staleTunnel`: why the tunnel looks dead, if it does. -/
def staleTunnel (p : PeerRecord) : Option Str :=
  if p.lastHandshake ≤ 0 then some "no handshake recorded yet"
  else if staleHandshakeSeconds < p.handshakeAge then
    some ("last handshake " ++ itoaInt p.handshakeAge ++ "s ago (> " ++
      itoaInt staleHandshakeSeconds ++ "s)")
  else none

/-- The title of the finding about a dead tunnel. -/
def tunnelTitle (clusterID : Str) : Str := "Tunnel to " ++ clusterID ++ " may be down"

variable (quote : Str → Str)

/-- The finding that a peer has not been programmed. -/
def unprogrammed (p : PeerRecord) (phase : Str) : Finding where
  severity := .warning
  title := "Peer " ++ p.clusterID ++ " not programmed"
  detail := p.message
  signal := "peer[" ++ p.clusterID ++ "].phase=" ++ quote phase
  remedy := str ("the node agent has not converged this peer yet; check the agent pod on this " ++
    "node has NET_ADMIN and is running")

/-- The body of the loop of `diagnosePeers`. -/
def diagnosePeer (p : PeerRecord) : List Finding :=
  match p.phase with
  | .error => [{
      severity := .critical
      title := "Peer " ++ p.clusterID ++ " in Error"
      detail := p.message
      signal := "peer[" ++ p.clusterID ++ "].phase=Error: " ++ p.message
      remedy := peerErrorRemedy p.message }]
  | .connected =>
    (staleTunnel p).toList.map fun why => {
      severity := .warning
      title := tunnelTitle p.clusterID
      detail := why
      signal := "peer[" ++ p.clusterID ++ "] connected, " ++ why
      remedy := str ("verify the peer endpoint is reachable (UDP/firewall, NAT, correct " ++
        "host:port); an idle tunnel can also legitimately go quiet") }
  | .pending => [unprogrammed quote p "Pending"]
  | .unset => [unprogrammed quote p "<unset>"]

variable (s : Snapshot)

/-- The findings on peers. -/
def diagnosePeers : List Finding :=
  s.peers.flatMap (diagnosePeer quote)

/-- The body of the loop of `diagnoseExports`. -/
def diagnoseExport (e : ExportSnapshot) : List Finding :=
  let name := e.namespace_ ++ "/" ++ e.name
  if e.conflict then [{
    severity := .warning
    title := "Export conflict: " ++ name
    detail := e.message
    signal := "export[" ++ name ++ "].conflict: " ++ e.message
    remedy := str ("clusters exported this name with incompatible type/ports; align the Service " ++
      "definitions across clusters") }]
  else if e.valid = false then [{
    severity := .warning
    title := "Export invalid: " ++ name
    detail := e.message
    signal := "export[" ++ name ++ "].valid=false: " ++ e.message
    remedy := str ("ensure a Service of the same name/namespace exists and is selectable; the " ++
      "export marks itself Valid once it resolves") }]
  else []

/-- The failed policies. -/
def diagnosePolicies : List Finding :=
  (s.policies.filter fun p => p.phase = .error).map fun p => {
    severity := .critical
    title := "Policy " ++ p.name ++ " failed to program"
    detail := p.message
    signal := "policy[" ++ p.name ++ "].phase=Error: " ++ p.message
    remedy := str ("fix the policy spec (likely a malformed or non-IPv4 CIDR); until it " ++
      "programs, its protected destinations may be exposed or fail closed") }

/-- The recent warnings. -/
def diagnoseEvents : List Finding :=
  (s.events.filter fun e => e.type_ = str "Warning").map fun e => {
    severity := .info
    title := str "Recent warning: " ++ e.reason
    detail := e.message
    signal := str "event[" ++ e.object ++ str "] " ++ e.reason ++ str ": " ++ e.message
    remedy := [] }

/-- The order of findings: the most severe first. -/
def lessFinding : Finding → Finding → Bool :=
  Sorting.byField (fun f => f.severity.rank) (fun a b => decide (b < a)) <|
    Sorting.byField Finding.title less fun a b => less a.signal b.signal

/-- All findings, sorted. -/
def diagnose : List Finding :=
  Sorting.sort lessFinding (diagnoseHealth s ++ diagnoseConflicts s ++ diagnosePeers quote s ++
    s.exports.flatMap diagnoseExport ++ diagnosePolicies s ++ diagnoseEvents s)

/-- The finding is about this tunnel. -/
def Finding.IsTunnel (f : Finding) (clusterID : Str) : Prop := f.title = tunnelTitle clusterID

theorem not_isTunnel {f : Finding} {word rest : Str} (title : f.title = word ++ rest)
    (apart : word.take 2 ≠ "Tu") (long : 2 ≤ word.length) (clusterID : Str) :
    ¬ f.IsTunnel clusterID := by
  intro about
  rw [Finding.IsTunnel, title] at about
  have start : (word ++ rest).take 2 = (tunnelTitle clusterID).take 2 := by rw [about]
  rw [take_append_of_le_length long] at start
  exact apart start

theorem tunnelTitle_injective {left right : Str} (same : tunnelTitle left = tunnelTitle right) :
    left = right := by
  simpa [tunnelTitle] using same

theorem exists_isTunnel_iff (clusterID : Str) :
    (∃ f ∈ diagnose quote s, f.IsTunnel clusterID) ↔
      ∃ p ∈ s.peers, p.clusterID = clusterID ∧ p.phase = .connected ∧
        (staleTunnel p).isSome = true := by
  have per_peer : ∀ p : PeerRecord, (∃ f ∈ diagnosePeer quote p, f.IsTunnel clusterID) ↔
      p.clusterID = clusterID ∧ p.phase = .connected ∧ (staleTunnel p).isSome = true := by
    intro p
    rw [diagnosePeer]
    cases p.phase with
    | connected =>
      cases staleTunnel p with
      | none => simp
      | some why =>
        simp only [Option.toList_some, map_singleton, mem_singleton, exists_eq_left,
          Finding.IsTunnel, Option.isSome_some, and_true]
        exact ⟨tunnelTitle_injective, fun same => by rw [same]⟩
    | error | pending | unset =>
      simp only [mem_singleton, exists_eq_left, reduceCtorEq, false_and, and_false, iff_false]
      exact not_isTunnel (append_assoc _ _ _) (by decide) (by decide) clusterID
  simp only [diagnose, Sorting.mem_sort, mem_append]
  constructor
  · rintro ⟨f, ((((health | conflict) | peer) | export_) | policy) | event, about⟩
    · obtain ⟨c, -, rfl⟩ := mem_map.mp health
      exact absurd about (not_isTunnel rfl (by decide) (by decide) clusterID)
    · obtain ⟨c, -, rfl⟩ := mem_map.mp conflict
      exact absurd about (not_isTunnel rfl (by decide) (by decide) clusterID)
    · obtain ⟨p, listed, found⟩ := mem_flatMap.mp peer
      exact ⟨p, listed, (per_peer p).mp ⟨f, found, about⟩⟩
    · obtain ⟨e, -, found⟩ := mem_flatMap.mp export_
      rw [diagnoseExport] at found
      split at found
      · rw [mem_singleton] at found
        subst found
        exact absurd about (not_isTunnel rfl (by decide) (by decide) clusterID)
      · split at found
        · rw [mem_singleton] at found
          subst found
          exact absurd about (not_isTunnel rfl (by decide) (by decide) clusterID)
        · cases found
    · obtain ⟨p, -, rfl⟩ := mem_map.mp policy
      exact absurd about (not_isTunnel (append_assoc _ _ _) (by decide) (by decide) clusterID)
    · obtain ⟨e, -, rfl⟩ := mem_map.mp event
      exact absurd about (not_isTunnel rfl (by decide) (by decide) clusterID)
  · rintro ⟨p, listed, stale⟩
    obtain ⟨f, found, about⟩ := (per_peer p).mpr stale
    exact ⟨f, .inl (.inl (.inl (.inr (mem_flatMap.mpr ⟨p, listed, found⟩)))), about⟩

theorem staleTunnel_observe {now : Int} (positive : 0 < now) (p : PeerRecord) :
    (staleTunnel (observe now p)).isSome = true ↔ ¬ Recent now p.lastHandshake := by
  have in_range := @handshakeAge_in_range_iff now p.lastHandshake positive
  have read : staleTunnel (observe now p) = if p.lastHandshake ≤ 0 then
      some (str "no handshake recorded yet")
    else if staleHandshakeSeconds < handshakeAge now p.lastHandshake then
      some (str "last handshake " ++ itoaInt (handshakeAge now p.lastHandshake) ++
        str "s ago (> " ++ itoaInt staleHandshakeSeconds ++ str "s)")
    else none := rfl
  rw [read, ← in_range, not_and_or, not_le, not_le, handshakeAge_neg_iff positive]
  split
  case isTrue never => exact iff_of_true rfl (.inl never)
  case isFalse seen =>
    rw [or_iff_right seen]
    split
    case isTrue late => exact iff_of_true rfl late
    case isFalse soon => exact iff_of_false Bool.false_ne_true soon

end DatawerxMesh.Verify
