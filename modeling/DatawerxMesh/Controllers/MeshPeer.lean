import DatawerxMesh.Topology.RemapRun

/-!
# The peer reconciler

`reconcileApply` of `pkg/controllers/meshpeer_controller.go` plans a peer, programs it and publishes
its status, for every implementation of the data plane and the API server.
-/

namespace DatawerxMesh.Controllers

open Go Program DatawerxMesh.Topology

/-- `PeerDataPlane`: a failing call returns its error with the state it leaves behind. -/
structure PeerDataPlane (σ : Type) where
  configurePeer : (peerKey endpoint : Str) → (allowedIPs : List Str) → σ → σ × Option Str
  removePeer : (peerKey : Str) → σ → σ × Option Str
  peerHandshake : (peerKey : Str) → σ → Except Str Int

/-- What `reconcileApply` calls: the data plane, the status patch of the API server and `%q`. -/
structure Environment (σ : Type) where
  dataPlane : PeerDataPlane σ
  patch : MeshPeer → Option Str
  quote : Str → Str

/-- A namespace and a name. -/
abbrev NamespacedName := Str × Str

/-- The name under which a peer is tracked. -/
def peerKey (peer : MeshPeer) : NamespacedName := (peer.namespace_, peer.name)

/-- The state that a reconciler process changes: the data plane and its `keyIndex`. -/
structure AgentState (σ : Type) where
  dataPlane : σ
  keyIndex : AList fun _ : NamespacedName => Str

/-- `MeshPeerReconciler`, as far as planning reads it. -/
structure MeshPeerReconciler where
  localCIDRs : List Str
  clusterID : Str
  remapPool : Str

/-- Result of `reconcileApply`: the state, the peer with its status, and what is returned. -/
structure ApplyResult (σ : Type) where
  state : AgentState σ
  peer : MeshPeer
  requeueAfter : Option Nat
  error : Option Str

/-- Seconds between two status updates. -/
def handshakeRefreshInterval : Nat := 60

section Apply

variable {σ : Type} (env : Environment σ)

/-- `patchStatus`, which writes only when something changed. -/
def patchStatus (peer : MeshPeer) (phase : MeshPeerPhase) (handshake : Int) (message : Str) :
    MeshPeer × Option Str :=
  if peer.status.phase = phase ∧ peer.status.lastHandshakeTime = handshake ∧
      peer.status.message = message ∧ peer.status.observedGeneration = peer.generation then
    (peer, none)
  else
    let patched := { peer with
      status := {
        phase, lastHandshakeTime := handshake, message, observedGeneration := peer.generation } }
    (patched, (env.patch patched).map fun error => "patching MeshPeer status: " ++ error)

/-- The error is written to the status. -/
def fail (state : AgentState σ) (peer : MeshPeer) (message : Str) : ApplyResult σ :=
  let (patched, statusError) := patchStatus env peer .error peer.status.lastHandshakeTime message
  { state, peer := patched, requeueAfter := none,
    error := match statusError with
      | none => some message
      | some error => some (message ++ "; additionally failed to update status: " ++ error) }

/-- The CIDRs to route for a plan, with the phase and the message to report. -/
def MeshPeerReconciler.routePlan (r : MeshPeerReconciler) (clusterID : Str) (plan : Plan) :
    Outcome PlanError (List Str × MeshPeerPhase × Str) :=
  if plan.hasConflicts && r.remapPool != [] then do
    let remap ← planRemap r.remapPool r.clusterID r.localCIDRs clusterID plan.conflictingCIDRs
    return (plan.routableCIDRs ++ remap.routeVirtual, .connected,
      "peer programmed; " ++ itoa plan.routableCIDRs.length ++ " CIDRs routed, " ++
        itoa plan.conflictingCIDRs.length ++ " overlapping remapped via " ++ r.remapPool)
  else pure (plan.routableCIDRs, plan.phase, plan.message)

/-- Key rotation: withdraw the key that was programmed before, if it is another one. -/
def removeRotated (state : AgentState σ) (peer : MeshPeer) (publicKey : Str) : σ × Option Str :=
  match state.keyIndex.lookup (peerKey peer) with
  | some old =>
    if old ≠ publicKey then env.dataPlane.removePeer old state.dataPlane
    else (state.dataPlane, none)
  | none => (state.dataPlane, none)

/-- `reconcileApply` from the programming of the data plane on. -/
def program (state : AgentState σ) (peer : MeshPeer) (plan : Plan) (routeCIDRs : List Str)
    (phase : MeshPeerPhase) (message : Str) : ApplyResult σ :=
  match removeRotated env state peer plan.publicKey with
  | (rotated, some error) =>
    fail env { state with dataPlane := rotated } peer ("removing rotated peer key: " ++ error)
  | (rotated, none) =>
    match env.dataPlane.configurePeer plan.publicKey plan.endpoint routeCIDRs rotated with
    | (configured, some error) =>
      fail env { state with dataPlane := configured } peer
        ("configuring peer data plane: " ++ error)
    | (configured, none) =>
      let handshake :=
        match env.dataPlane.peerHandshake plan.publicKey configured with
        | .error _ => peer.status.lastHandshakeTime
        | .ok time => time
      let (patched, error) := patchStatus env peer phase handshake message
      { state := {
          dataPlane := configured
          keyIndex := state.keyIndex.insert (peerKey peer) plan.publicKey }
        peer := patched, requeueAfter := some handshakeRefreshInterval, error }

/-- `MeshPeerReconciler.reconcileApply`.  Errors are returned beside the effects. -/
def MeshPeerReconciler.reconcileApply (r : MeshPeerReconciler) (state : AgentState σ)
    (peer : MeshPeer) : Outcome Empty (ApplyResult σ) :=
  let plan := planPeer peer.spec r.localCIDRs
  if !plan.programmable then .ok (fail env state peer plan.message)
  else
    match r.routePlan peer.spec.clusterID plan with
    | .panic => .panic
    | .err error =>
      .ok (fail env state peer ("planning overlap remap: " ++ error.text env.quote))
    | .ok (routeCIDRs, phase, message) => .ok (program env state peer plan routeCIDRs phase message)

end Apply

/-- The data plane with a log of the allowed IPs of every `ConfigurePeer` call. -/
def logged {σ : Type} (dataPlane : PeerDataPlane σ) : PeerDataPlane (σ × List (List Str)) where
  configurePeer peerKey endpoint allowedIPs state :=
    let (next, error) := dataPlane.configurePeer peerKey endpoint allowedIPs state.1
    ((next, state.2 ++ [allowedIPs]), error)
  removePeer peerKey state :=
    let (next, error) := dataPlane.removePeer peerKey state.1
    ((next, state.2), error)
  peerHandshake peerKey state := dataPlane.peerHandshake peerKey state.1

/-- The environment with a logged data plane. -/
def Environment.logged {σ : Type} (env : Environment σ) : Environment (σ × List (List Str)) :=
  { env with dataPlane := Controllers.logged env.dataPlane }

/-- An environment in which every call succeeds. -/
def quietEnvironment : Environment Unit where
  dataPlane := {
    configurePeer := fun _ _ _ _ => ((), none)
    removePeer := fun _ _ => ((), none)
    peerHandshake := fun _ _ => .ok 0 }
  patch := fun _ => none
  quote := id

/-- Some run of `reconcileApply` on the peer passes the list to `ConfigurePeer`. -/
def MeshPeerReconciler.Programs (r : MeshPeerReconciler) (peer : MeshPeer) (allowedIPs : List Str) :
    Prop :=
  ∃ (σ : Type) (env : Environment σ) (state : AgentState (σ × List (List Str)))
    (result : ApplyResult (σ × List (List Str))),
    state.dataPlane.2 = [] ∧ r.reconcileApply env.logged state peer = .ok result ∧
    allowedIPs ∈ result.state.dataPlane.2

section Log

variable {σ : Type} (env : Environment σ)

theorem fail_state (state : AgentState σ) (peer : MeshPeer) (message : Str) :
    (fail env state peer message).state = state := rfl

theorem log_removeRotated (state : AgentState (σ × List (List Str))) (peer : MeshPeer)
    (publicKey : Str) :
    (removeRotated env.logged state peer publicKey).1.2 = state.dataPlane.2 := by
  unfold removeRotated
  split
  · split <;> rfl
  · rfl

theorem mem_log_program {state : AgentState (σ × List (List Str))} (fresh : state.dataPlane.2 = [])
    {peer : MeshPeer} {plan : Plan} {routeCIDRs : List Str} {phase : MeshPeerPhase} {message : Str}
    {allowedIPs : List Str}
    (called : allowedIPs ∈
      (program env.logged state peer plan routeCIDRs phase message).state.dataPlane.2) :
    allowedIPs = routeCIDRs := by
  have kept := log_removeRotated env state peer plan.publicKey
  rw [fresh] at kept
  unfold program at called
  split at called
  · rename_i rotated _ removed
    rw [removed] at kept
    rw [fail_state, kept] at called
    cases called
  · rename_i rotated removed
    rw [removed] at kept
    have logged_once :
        (env.logged.dataPlane.configurePeer plan.publicKey plan.endpoint routeCIDRs rotated).1.2 =
          [routeCIDRs] := by
      change rotated.2 ++ [routeCIDRs] = [routeCIDRs]
      rw [kept, List.nil_append]
    split at called
    · rename_i configured
      rw [configured] at logged_once
      rw [fail_state, logged_once] at called
      exact List.mem_singleton.mp called
    · rename_i configured
      rw [configured] at logged_once
      have only : allowedIPs ∈ [routeCIDRs] := logged_once ▸ called
      exact List.mem_singleton.mp only

end Log

theorem planPeer_programmable (spec : MeshPeerSpec) (localCIDRs : List Str) :
    (planPeer spec localCIDRs).programmable = true ↔ spec.publicKey ≠ [] := by
  unfold planPeer
  split <;> simp_all [Plan.programmable]

theorem MeshPeerReconciler.reconcileApply_cases {σ : Type} {r : MeshPeerReconciler}
    {env : Environment σ} {state : AgentState σ} {peer : MeshPeer} {result : ApplyResult σ}
    (applied : r.reconcileApply env state peer = .ok result) :
    (∃ message, result = fail env state peer message) ∨ peer.spec.publicKey ≠ [] ∧
      ∃ routeCIDRs phase message,
        r.routePlan peer.spec.clusterID (planPeer peer.spec r.localCIDRs) =
          .ok (routeCIDRs, phase, message) ∧
        result = program env state peer (planPeer peer.spec r.localCIDRs) routeCIDRs phase
          message := by
  rw [reconcileApply] at applied
  split at applied
  case isTrue => exact .inl ⟨_, (Outcome.ok.inj applied).symm⟩
  case isFalse programmable =>
    split at applied
    case h_1 => cases applied
    case h_2 => exact .inl ⟨_, (Outcome.ok.inj applied).symm⟩
    case h_3 routeCIDRs phase message planned =>
      exact .inr ⟨(planPeer_programmable peer.spec r.localCIDRs).mp (by simpa using programmable),
        routeCIDRs, phase, message, planned, (Outcome.ok.inj applied).symm⟩

theorem MeshPeerReconciler.programs_iff (r : MeshPeerReconciler) (peer : MeshPeer)
    (allowedIPs : List Str) :
    r.Programs peer allowedIPs ↔ peer.spec.publicKey ≠ [] ∧ ∃ phase message,
        r.routePlan peer.spec.clusterID (planPeer peer.spec r.localCIDRs) =
          .ok (allowedIPs, phase, message) := by
  constructor
  · rintro ⟨σ, env, state, result, fresh, applied, called⟩
    obtain ⟨_, rfl⟩ | ⟨keyed, routeCIDRs, phase, message, planned, rfl⟩ :=
      reconcileApply_cases applied
    · rw [fail_state, fresh] at called
      cases called
    · obtain rfl := mem_log_program env fresh called
      exact ⟨keyed, phase, message, planned⟩
  · rintro ⟨keyed, phase, message, planned⟩
    refine ⟨Unit, quietEnvironment, ⟨((), []), ∅⟩,
      program quietEnvironment.logged ⟨((), []), ∅⟩ peer
      (planPeer peer.spec r.localCIDRs) allowedIPs phase message, rfl, ?_, ?_⟩
    · rw [reconcileApply]
      simp only [(planPeer_programmable peer.spec r.localCIDRs).mpr keyed, planned]
      rfl
    · simp only [program, removeRotated, AList.lookup_empty]
      exact List.mem_singleton_self allowedIPs

end DatawerxMesh.Controllers
