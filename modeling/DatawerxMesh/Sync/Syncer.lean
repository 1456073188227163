import DatawerxMesh.Library.ApiObject
import DatawerxMesh.Topology.Conflicts
import DatawerxMesh.Topology.NameCollisions
import Mathlib.Data.Finmap

/-!
# The topology syncer

`pkg/syncer/syncer.go`: a pass writes one MeshPeer for each peer of the control plane and deletes
those that it wrote for peers that are gone.
-/

namespace DatawerxMesh.Sync

open Go Program ApiServer DatawerxMesh.Topology

/-- An entry of the topology. -/
structure RemotePeerConfig where
  clusterID : Str
  publicKey : Str
  endpoint : Str
  podCIDRs : List Str
  serviceCIDRs : List Str
  deriving DecidableEq

/-- All ranges of an entry. -/
def RemotePeerConfig.allowedIPs (peer : RemotePeerConfig) : List Str :=
  peer.podCIDRs ++ peer.serviceCIDRs

/-- The entries as the detector reads them. -/
def toIdentities (peers : List RemotePeerConfig) : List PeerIdentity :=
  peers.map fun p => ⟨p.clusterID, p.publicKey, p.endpoint, p.allowedIPs⟩

/-- The part of a MeshPeer that the syncer reads and writes, besides its name. -/
structure SyncedPeer where
  labels : Finmap fun _ : Str => Str
  spec : MeshPeerSpec
  deriving DecidableEq

/-- A peer as the API server holds it. -/
abbrev StoredPeer := Held Str SyncedPeer

/-- The MeshPeers of the cluster, which have no namespace. -/
abbrev Peers := Store Str Str SyncedPeer

/-- The label of managed peers. -/
def managedByLabel : Str := "app.kubernetes.io/managed-by"

/-- The value of that label. -/
def managedByValue : Str := "datawerx-topology-syncer"

/-- The selector of `prune`. -/
def isManaged (held : StoredPeer) : Bool :=
  decide (held.body.labels.lookup managedByLabel = some managedByValue)

/-- The configuration of a `Syncer`.  The control plane may be a `RevisionedControlPlane`. -/
structure Syncer where
  localClusterID : Str
  revisioned : Bool

/-- What a `Syncer` remembers between passes. -/
structure SyncMemory where
  lastRevision : Str
  applied : Bool

/-- What a pass calls: the control plane, the conflict report and the API server. -/
inductive SyncCall where
  | fetchTopology
  | fetchTopologyWithRevision
  | reportConflicts (peers : List PeerIdentity)
  | get (name : Str)
  | write (name : Str) (request : Write Str SyncedPeer)
  | list

/-- What a call returns. -/
abbrev SyncCall.Value : SyncCall → Type
  | fetchTopology => List RemotePeerConfig
  | fetchTopologyWithRevision => List RemotePeerConfig × Str
  | reportConflicts _ | write _ _ => Unit
  | get _ => StoredPeer
  | list => List (Str × StoredPeer)

/-- The answer to a call. -/
abbrev SyncCall.Answer (call : SyncCall) : Type := Except (Error Str) call.Value

/-- A program of calls. -/
abbrev SyncScript := Script SyncCall SyncCall.Answer

namespace Syncer

/-- The entries and their revision. -/
def fetch (s : Syncer) : SyncScript (Except Str (List RemotePeerConfig × Str)) :=
  if s.revisioned then
    .call .fetchTopologyWithRevision fun
    | .ok fetched => pure (.ok fetched)
    | .error error => pure (.error error.text)
  else
    .call .fetchTopology fun
    | .ok peers => pure (.ok (peers, []))
    | .error error => pure (.error error.text)

end Syncer

/-- The spec that `upsert` writes. -/
def RemotePeerConfig.spec (rc : RemotePeerConfig) : MeshPeerSpec where
  clusterID := rc.clusterID
  publicKey := rc.publicKey
  endpoint := rc.endpoint
  podCIDRs := rc.podCIDRs
  serviceCIDRs := rc.serviceCIDRs

/-- The function that `upsert` passes to `CreateOrUpdate`. -/
def stamp (rc : RemotePeerConfig) (mp : SyncedPeer) : SyncedPeer where
  labels := mp.labels.insert managedByLabel managedByValue
  spec := rc.spec

/-- The peer before the first write. -/
def emptyPeer : SyncedPeer := ⟨∅, ⟨[], [], [], [], []⟩⟩

/-- The call of `controllerutil.CreateOrUpdate` in `upsert`. -/
def createOrUpdate (name : Str) (mutate : SyncedPeer → SyncedPeer) :
    SyncScript (Except (Error Str) Unit) :=
  ApiServer.createOrUpdate (Script.perform (SyncCall.get name))
    (fun request => Script.perform (SyncCall.write name request)) emptyPeer mutate

/-- A peer is created or brought up to date. -/
def upsert (rc : RemotePeerConfig) : SyncScript (Except Str Unit) := do
  let name := sanitizeName rc.clusterID
  match ← createOrUpdate name (stamp rc) with
  | .ok () => pure (.ok ())
  | .error error => pure (.error ("upserting MeshPeer " ++ name ++ ": " ++ error.text))

namespace Syncer

/-- An entry that is neither invalid nor of the local cluster. -/
def accepts (s : Syncer) (peer : RemotePeerConfig) : Bool :=
  !(peer.clusterID == [] || peer.clusterID == s.localClusterID)

/-- The loop of `upsertDesired`, from a set of written names and an `ok`. -/
def upsertLoop (s : Syncer) : List RemotePeerConfig → Finset Str → Bool →
    SyncScript (Finset Str × Bool)
  | [], desired, ok => pure (desired, ok)
  | peer :: rest, desired, ok =>
    if s.accepts peer then do
      match ← upsert peer with
      | .error _ => s.upsertLoop rest desired false
      | .ok () => s.upsertLoop rest (insert (sanitizeName peer.clusterID) desired) ok
    else s.upsertLoop rest desired ok

/-- All entries but the own one. -/
def upsertDesired (s : Syncer) (peers : List RemotePeerConfig) : SyncScript (Finset Str × Bool) :=
  s.upsertLoop peers ∅ true

end Syncer

/-- Peers that are not desired are deleted. -/
def pruneLoop (desired : Finset Str) : List (Str × StoredPeer) → SyncScript (Except Str Unit)
  | [] => pure (.ok ())
  | (name, mp) :: rest =>
    if name ∈ desired then pruneLoop desired rest
    else if mp.deleting then pruneLoop desired rest
    else
      .call (.write name .delete) fun
      | .ok () => pruneLoop desired rest
      | .error error =>
        if error.notFound then pruneLoop desired rest
        else pure (.error ("deleting stale MeshPeer " ++ name ++ ": " ++ error.text))

/-- The managed peers are pruned. -/
def prune (desired : Finset Str) : SyncScript (Except Str Unit) :=
  .call .list fun
  | .ok items => pruneLoop desired items
  | .error error => pure (.error ("listing managed MeshPeers: " ++ error.text))

/-- The test of `syncOnce` for a revision that was applied last. -/
def SyncMemory.skips (memory : SyncMemory) (revision : Str) : Bool :=
  memory.applied && revision != [] && revision == memory.lastRevision

namespace Syncer

/-- The part of `syncOnce` after that test. -/
def converge (s : Syncer) (memory : SyncMemory) (peers : List RemotePeerConfig) (revision : Str) :
    SyncScript SyncMemory :=
  .call (.reportConflicts (toIdentities peers)) fun _ => do
    let (desired, ok) ← s.upsertDesired peers
    if ok then
      match ← prune desired with
      | .error _ => pure memory
      | .ok () => pure ⟨revision, true⟩
    else pure memory

/-- `syncOnce`.  Errors are only logged. -/
def syncOnce (s : Syncer) (memory : SyncMemory) : SyncScript SyncMemory := do
  match ← s.fetch with
  | .error _ => pure memory
  | .ok (peers, revision) =>
    if memory.skips revision then pure memory else s.converge memory peers revision

end Syncer

/-- What a call that is carried out returns and does.  The control plane serves one topology.  Reads
are assumed to be fresh: they show what is stored, without the lag of an informer cache. -/
def SyncCall.Carried (fetched : List RemotePeerConfig × Str) :
    (call : SyncCall) → Peers → call.Value → Peers → Prop
  | fetchTopology, before, peers, after => peers = fetched.1 ∧ after = before
  | fetchTopologyWithRevision, before, value, after => value = fetched ∧ after = before
  | reportConflicts _, before, _, after => after = before
  | get name, before, held, after => before.find name = some held ∧ after = before
  | write name request, before, _, after =>
    ∃ object, request.apply (before.find name) = some object ∧ after = before.put name object
  | list, before, items, after => items.Perm (before.list isManaged) ∧ after = before

/-- The call names an object that does not exist. -/
def SyncCall.Missing : SyncCall → Peers → Prop
  | get name, state | write name _, state => state.find name = none
  | fetchTopology, _ | fetchTopologyWithRevision, _ | reportConflicts _, _ | list, _ => False

/-- The world of a pass, in which others may write MeshPeers too. -/
def syncWorld (fetched : List RemotePeerConfig × Str) (others : Peers → Peers → Prop) :
    World SyncCall SyncCall.Answer Peers where
  respond call before answer after :=
    Answers (call.Carried fetched) call.Missing before answer after
  interfere := others

end DatawerxMesh.Sync
