import DatawerxMesh.Go.Runtime
import DatawerxMesh.Meshfw.Interpret

/-!
# Expected reachability

`pkg/reach/reach.go`: whether each peer can reach into this cluster.  The rules are compared with
the CIDRs of the peer as texts.
-/

namespace DatawerxMesh.Reach

open Go Addressing Netfilter Meshfw Accumulation

/-- Whether a cluster can reach this one. -/
inductive Status where
  | reachable
  | blocked
  | degraded
  | unreachable
  deriving DecidableEq

/-- Whether a destination is open. -/
structure DestReach where
  dest : Str
  allowed : Bool
  deriving DecidableEq

/-- The row of a cluster. -/
structure Reachability where
  cluster : Str
  status : Status
  reason : Str
  dests : List DestReach
  deriving DecidableEq

/-- The report. -/
structure Matrix where
  apiVersion : Str
  kind : Str
  reachabilities : List Reachability
  deriving DecidableEq

/-- What the analysis knows of a cluster. -/
structure Peer where
  clusterID : Str
  connected : Bool
  conflict : Bool
  cidrs : List Str
  deriving DecidableEq

/-- What the analysis reads. -/
structure Input where
  peers : List Peer
  policies : List Policy
  clusterCIDRs : Str → List Str

/-- The version of the report. -/
def apiVersion : Str := "mesh.datawerx.io/reachability/v1alpha1"

/-- The kind of the report. -/
def kind : Str := "MeshReachability"

/-- The sources that stand for all. -/
def anySources : List Str := [[], "0.0.0.0/0", "::/0"]

/-- A rule opens the destination to the peer. -/
def peerAllowed (peerCIDRs : List Str) (accepts : List Access) (dest : Str) : Bool :=
  accepts.any fun a => (a.dest == [] || a.dest == dest) &&
    (anySources.contains a.source || peerCIDRs.contains a.source)

/-- The name of a destination. -/
def destLabel (d : Str) : Str := if d = [] then "<all mesh ingress>" else d

/-- Each text once, sorted. -/
def dedupeSorted (in_ : List Str) : List Str := sortStrings (firstOf id in_)

/-- There is no tunnel. -/
def notConnectedReason : Str :=
  str ("peer is not connected; the tunnel is not established, so no traffic flows regardless of " ++
    "policy")

/-- Ranges overlap. -/
def conflictReason : Str :=
  str ("peer is connected but a CIDR overlap makes its routing ambiguous; resolve the conflict " ++
    "(renumber or enable remap) before reachability is reliable")

/-- No policy restricts. -/
def openReason : Str :=
  str ("connected and no MeshNetworkPolicy restricts ingress on this cluster; open by default")

/-- Every destination is closed. -/
def blockedReason : Str :=
  str ("connected, but every protected destination is default-deny and no ingress rule permits " ++
    "this cluster")

/-- Every destination is open. -/
def allReason : Str :=
  "connected and mesh policy permits this cluster to every protected destination"

/-- Some destinations are open. -/
def someReason : Str :=
  str ("connected and mesh policy permits this cluster to some protected destinations; see the " ++
    "per-destination breakdown for the rest")

/-- The row of a peer. -/
def reachFor (p : Peer) (accepts : List Access) (protected_ : List Str) : Reachability :=
  if p.connected = false then ⟨p.clusterID, .unreachable, notConnectedReason, []⟩
  else if p.conflict then ⟨p.clusterID, .degraded, conflictReason, []⟩
  else if protected_ = [] then ⟨p.clusterID, .reachable, openReason, []⟩
  else
    let dests := protected_.map fun dest =>
      (⟨destLabel dest, peerAllowed p.cidrs accepts dest⟩ : DestReach)
    let allowed := dests.countP DestReach.allowed
    if allowed = 0 then ⟨p.clusterID, .blocked, blockedReason, dests⟩
    else if allowed = protected_.length then ⟨p.clusterID, .reachable, allReason, dests⟩
    else ⟨p.clusterID, .reachable, someReason, dests⟩

/-- `Plan`.  Rows of the same cluster are left in the order in which the run sorts them. -/
def plan (go : Runtime Unit) (in_ : Input) : Matrix :=
  let decisions := interpret (buildFirewall in_.policies in_.clusterCIDRs)
  let protected_ := dedupeSorted decisions.protected_
  let out := in_.peers.map fun p => reachFor p decisions.accepts protected_
  ⟨apiVersion, kind, go.sortSlice () (fun a b => less a.cluster b.cluster) out⟩

/-- The row of a peer under the policies. -/
def Input.report (in_ : Input) (p : Peer) : Reachability :=
  let decisions := interpret (buildFirewall in_.policies in_.clusterCIDRs)
  reachFor p decisions.accepts (dedupeSorted decisions.protected_)

theorem mem_plan {go : Runtime Unit} {in_ : Input} {row : Reachability} :
    row ∈ (plan go in_).reachabilities ↔ ∃ p ∈ in_.peers, row = in_.report p := by
  have orders : Sorting.Orders (fun a b : Reachability => less a.cluster b.cluster)
      Reachability.cluster := less_orders.onField
  have arranged := go.sortSlice_arranges () orders (in_.peers.map in_.report)
  refine (arranged.perm.mem_iff (a := row)).trans ?_
  simp [eq_comm]

@[simp] theorem reachFor_cluster (p : Peer) (accepts : List Access) (protected_ : List Str) :
    (reachFor p accepts protected_).cluster = p.clusterID := by
  unfold reachFor
  split
  · rfl
  · split
    · rfl
    · split
      · rfl
      · dsimp only
        split
        · rfl
        · split <;> rfl

theorem dests_reachFor {p : Peer} (connected : p.connected = true) (clear : p.conflict = false)
    (accepts : List Access) (protected_ : List Str) :
    (reachFor p accepts protected_).dests = protected_.map fun dest =>
      ⟨destLabel dest, peerAllowed p.cidrs accepts dest⟩ := by
  unfold reachFor
  rw [if_neg (by simp [connected]), if_neg (by simp [clear])]
  split
  · rename_i empty
    rw [empty]
    rfl
  · dsimp only
    split
    · rfl
    · split <;> rfl

theorem denied_of_blocked {p : Peer} {accepts : List Access} {protected_ : List Str}
    (blocked : (reachFor p accepts protected_).status = .blocked) {d : DestReach}
    (mem : d ∈ (reachFor p accepts protected_).dests) : d.allowed = false := by
  unfold reachFor at blocked mem
  split at blocked
  case isTrue => cases blocked
  case isFalse connected =>
    split at blocked
    case isTrue => cases blocked
    case isFalse clear =>
      split at blocked
      case isTrue => cases blocked
      case isFalse guarded =>
        rw [if_neg connected, if_neg clear, if_neg guarded] at mem
        dsimp only at blocked mem
        split at blocked
        case isTrue none_allowed =>
          rw [if_pos none_allowed] at mem
          simpa using List.countP_eq_zero.mp none_allowed d mem
        case isFalse =>
          split at blocked
          all_goals cases blocked

theorem protected_of_no_dests {p : Peer} {accepts : List Access} {protected_ : List Str}
    (reachable : (reachFor p accepts protected_).status = .reachable)
    (no_dests : (reachFor p accepts protected_).dests = []) : protected_ = [] := by
  have connected : p.connected = true := by
    by_contra down
    rw [reachFor, if_pos (by simpa using down)] at reachable
    cases reachable
  have clear : p.conflict = false := by
    by_contra conflict
    rw [reachFor, if_neg (by simp [connected]), if_pos (by simpa using conflict)] at reachable
    cases reachable
  rwa [dests_reachFor connected clear, List.map_eq_nil_iff] at no_dests

theorem mem_dedupeSorted {texts : List Str} {text : Str} :
    text ∈ dedupeSorted texts ↔ text ∈ texts := by
  rw [dedupeSorted, sortStrings, Sorting.mem_sort]
  exact mem_firstOf fun _ _ same => same

end DatawerxMesh.Reach
