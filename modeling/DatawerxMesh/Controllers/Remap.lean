import DatawerxMesh.NatPlane.Rules
import DatawerxMesh.Topology.RemapRun

/-!
# The remap reconciler

`pkg/controllers/remap_controller.go`: the remap entries of a cluster over the plans of all its
peers, whose virtual ranges are claimed in one table.
-/

namespace DatawerxMesh.Controllers

open Go Program Ownership DatawerxMesh.Topology NatPlane List

/-- `RemapReconciler`, as far as planning reads it. -/
structure RemapReconciler where
  clusterID : Str
  localCIDRs : List Str
  remapPool : Str

/-- Why no entries are built. -/
inductive EntriesError where
  | planning (peerName : Str) (error : PlanError)
  | collision (pool previous source virtual : Str)
  deriving DecidableEq

/-- The message of an error. -/
def EntriesError.text (quote : Str → Str) : EntriesError → Str
  | planning peerName error =>
    "planning remap for peer " ++ peerName ++ ": " ++ error.text quote
  | collision pool previous source virtual =>
    "overlap remap collision in pool " ++ pool ++ ": " ++ previous ++ " and " ++
      source ++ " both map to virtual " ++ virtual ++
      "; enlarge DataWerx_REMAP_CIDR or remove the overlapping ranges"

/-- The ranges that may be routed. -/
def excludeDangerous (cidrs : List Str) : List Str :=
  let dangerous := dangerousCIDRs cidrs
  cidrs.filter fun cidr => !dangerous.contains cidr

variable (r : RemapReconciler)

/-- The conflicts of a peer that may be remapped. -/
def RemapReconciler.remapConflicts (peer : MeshPeer) : List Str :=
  excludeDangerous (partition peer.spec.allCIDRs r.localCIDRs).2

/-- The `claim` closure of `buildEntries`. -/
def claimEntry (pool : Str) (owner : Owners) (virtual source : Str) :
    Outcome EntriesError Owners :=
  match Ownership.claim owner virtual source with
  | .ok owner => .ok owner
  | .error previous => .err (.collision pool previous source virtual)

/-- The one source of all routed ranges of a peer. -/
def routeSource (clusterID : Str) : Str := "peer " ++ clusterID ++ " route"

/-- The source of a local range. -/
def realSource (real : Str) : Str := "local " ++ real

/-- Append an entry that is not yet there; `seen` holds exactly the elements of `out`. -/
def addEntry (entry : RemapEntry) (out : List RemapEntry) : List RemapEntry :=
  if entry ∈ out then out else out ++ [entry]

/-- Loop body of `buildEntries`. -/
def RemapReconciler.buildPeer (state : Owners × List RemapEntry)
    (peer : MeshPeer) : Outcome EntriesError (Owners × List RemapEntry) :=
  if peer.spec.publicKey = [] then pure state
  else
    let conflicts := r.remapConflicts peer
    if conflicts = [] then pure state
    else do
      let plan ← (planRemap r.remapPool r.clusterID r.localCIDRs peer.spec.clusterID
        conflicts).mapErr (.planning peer.name)
      let owner ← plan.routeVirtual.foldlM (fun owner virtual =>
        claimEntry r.remapPool owner virtual (routeSource peer.spec.clusterID)) state.1
      plan.locals.foldlM (fun state pair => do
        let owner ← claimEntry r.remapPool state.1 pair.virtual (realSource pair.real)
        return (owner, addEntry ⟨pair.real, pair.virtual⟩ state.2)) (owner, state.2)

/-- The entries of all peers, or the first error. -/
def RemapReconciler.buildEntries (peers : List MeshPeer) :
    Outcome EntriesError (List RemapEntry) := do
  let (_, out) ← peers.foldlM r.buildPeer (∅, [])
  return out

theorem excludeDangerous_eq (cidrs : List Str) :
    excludeDangerous cidrs = cidrs.filter fun cidr => !dangerousText cidr := by
  rw [excludeDangerous]
  refine filter_congr fun cidr mem => ?_
  congr 1
  rw [Bool.eq_iff_iff, contains_iff_mem, dangerousCIDRs, mem_filter]
  exact and_iff_right mem

/-- The plan for one peer. -/
def RemapReconciler.peerPlan (peer : MeshPeer) :
    Outcome PlanError RemapPlan :=
  if peer.spec.publicKey = [] then .ok ⟨[], []⟩
  else planRemap r.remapPool r.clusterID r.localCIDRs peer.spec.clusterID (r.remapConflicts peer)

/-- The claim of a routed range. -/
def routeRequest (clusterID virtual : Str) : Request Str Str (List RemapEntry) where
  key := virtual
  source := routeSource clusterID
  update := id

/-- The claim of a local range, which also adds its entry. -/
def realRequest (pair : Remap) : Request Str Str (List RemapEntry) where
  key := pair.virtual
  source := realSource pair.real
  update := addEntry ⟨pair.real, pair.virtual⟩

/-- The claims of a plan, routed ranges first. -/
def planRequests (clusterID : Str) (plan : RemapPlan) : List (Request Str Str (List RemapEntry)) :=
  plan.routeVirtual.map (routeRequest clusterID) ++ plan.locals.map realRequest

/-- The virtual ranges that one peer claims. -/
def RemapReconciler.peerRequests (peer : MeshPeer) :
    Outcome EntriesError (List (Request Str Str (List RemapEntry))) :=
  (r.peerPlan peer).mapErr (.planning peer.name) >>= fun plan =>
    pure (planRequests peer.spec.clusterID plan)

/-- The error of a range claimed twice. -/
def entryCollision (pool virtual previous source : Str) : EntriesError :=
  .collision pool previous source virtual

theorem settle_routes (pool clusterID : Str) (virtuals : List Str) (owner : Owners)
    (out : List RemapEntry) :
    (virtuals.map (routeRequest clusterID)).foldlM (settle (entryCollision pool)) (owner, out) =
      (virtuals.foldlM (fun owner virtual =>
        claimEntry pool owner virtual (routeSource clusterID)) owner >>= fun owner =>
          pure (owner, out)) := by
  induction virtuals generalizing owner with
  | nil => rfl
  | cons virtual virtuals ih =>
    rw [map_cons, foldlM_cons, foldlM_cons, settle, claimEntry, routeRequest]
    cases Ownership.claim owner virtual (routeSource clusterID) with
    | error previous => rfl
    | ok owner => exact ih owner

theorem settle_reals (pool : Str) (pairs : List Remap) (state : Owners × List RemapEntry) :
    (pairs.map realRequest).foldlM (settle (entryCollision pool)) state =
      pairs.foldlM (fun state pair => do
        let owner ← claimEntry pool state.1 pair.virtual (realSource pair.real)
        return (owner, addEntry ⟨pair.real, pair.virtual⟩ state.2)) state := by
  rw [foldlM_map]
  congr 1
  funext state pair
  rw [settle, claimEntry, realRequest]
  cases Ownership.claim state.1 pair.virtual (realSource pair.real) <;> rfl

theorem RemapReconciler.buildLoop_eq_run (peers : List MeshPeer)
    (state : Owners × List RemapEntry) :
    peers.foldlM r.buildPeer state =
      Ownership.run (entryCollision r.remapPool) r.peerRequests peers state := by
  rw [Ownership.run]
  congr 1
  funext current peer
  rw [buildPeer, peerRequests, peerPlan]
  by_cases keyless : peer.spec.publicKey = []
  · rw [if_pos keyless, if_pos keyless]
    rfl
  · rw [if_neg keyless, if_neg keyless]
    cases conflicts_eq : r.remapConflicts peer with
    | nil => rfl
    | cons cidr rest =>
      simp only [reduceCtorEq, if_false, bind_assoc, pure_bind]
      refine bind_congr fun plan => ?_
      rw [planRequests, foldlM_append, settle_routes]
      simp only [bind_assoc, pure_bind, settle_reals]

end DatawerxMesh.Controllers
