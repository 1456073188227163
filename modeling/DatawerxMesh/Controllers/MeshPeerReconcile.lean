import DatawerxMesh.Controllers.MeshPeer
import DatawerxMesh.Library.ApiObject
import Mathlib.Data.Finset.Erase
import Mathlib.Data.Finset.Insert

/-!
# Reconciling a peer

`Reconcile` of `pkg/controllers/meshpeer_controller.go` and what it does to every device that adds
and removes keys, whether calls succeed or fail half way.
-/

namespace DatawerxMesh.Controllers

open Go Program ApiServer DatawerxMesh.Topology

/-- The finalizer that delays deletion. -/
def meshPeerFinalizer : Str := "networking.datawerx.io/meshpeer-cleanup"

/-- A MeshPeer as the API server holds it. -/
abbrev HeldPeer := Held Str MeshPeer

/-- What the API server answers during one call, as far as it may fail. -/
structure PeerApi where
  getError : Option Str
  updateError : Option Str

/-- Result of `Reconcile`: the state, the stored object, and what is returned. -/
structure ReconcileResult (σ : Type) where
  state : AgentState σ
  object : Option HeldPeer
  requeueAfter : Option Nat
  error : Option Str

section Reconcile

variable {σ : Type} (env : Environment σ) (api : PeerApi)

/-- The branch of `Reconcile` for an object that is gone. -/
def reconcileGone (name : NamespacedName) (state : AgentState σ) : ReconcileResult σ :=
  match state.keyIndex.lookup name with
  | none => ⟨state, none, none, none⟩
  | some key =>
    match env.dataPlane.removePeer key state.dataPlane with
    | (dataPlane, some error) => ⟨{ state with dataPlane }, none, none, some error⟩
    | (dataPlane, none) => ⟨⟨dataPlane, state.keyIndex.erase name⟩, none, none, none⟩

/-- The tunnel is removed before the finalizer. -/
def reconcileDelete (held : HeldPeer) (state : AgentState σ) : ReconcileResult σ :=
  if meshPeerFinalizer ∈ held.finalizers then
    let key := held.body.spec.publicKey
    let (dataPlane, removeError) :=
      if key ≠ [] then env.dataPlane.removePeer key state.dataPlane else (state.dataPlane, none)
    match removeError with
    | some error => ⟨{ state with dataPlane }, some held, none, some error⟩
    | none =>
      let state := ⟨dataPlane, state.keyIndex.erase (peerKey held.body)⟩
      match api.updateError with
      | some error => ⟨state, some held, none, some ("removing finalizer: " ++ error)⟩
      | none =>
        let finalizers := held.finalizers.filter (· ≠ meshPeerFinalizer)
        ⟨state, held.update finalizers held.body, none, none⟩
  else ⟨state, some held, none, none⟩

/-- The object is kept from now on. -/
def addFinalizer (held : HeldPeer) (state : AgentState σ) : ReconcileResult σ :=
  match api.updateError with
  | some error => ⟨state, some held, none, some ("adding finalizer: " ++ error)⟩
  | none => ⟨state, held.update (held.finalizers ++ [meshPeerFinalizer]) held.body, none, none⟩

/-- `MeshPeerReconciler.Reconcile`.  The status is stored when its patch succeeds. -/
def MeshPeerReconciler.reconcile (r : MeshPeerReconciler) (name : NamespacedName)
    (object : Option HeldPeer) (state : AgentState σ) : Outcome Empty (ReconcileResult σ) :=
  match api.getError with
  | some error => .ok ⟨state, object, none, some ("fetching MeshPeer: " ++ error)⟩
  | none =>
    match object with
    | none => .ok (reconcileGone env name state)
    | some held =>
      if held.deleting then .ok (reconcileDelete env api held state)
      else if meshPeerFinalizer ∉ held.finalizers then .ok (addFinalizer api held state)
      else do
        let result ← r.reconcileApply env state held.body
        let stored := if env.patch result.peer = none then result.peer else held.body
        return ⟨result.state, some (held.withBody stored), result.requeueAfter, result.error⟩

end Reconcile

/-- The keys that a device knows, and those that were ever passed to `ConfigurePeer`. -/
structure Device where
  programmed : Finset Str
  passed : Finset Str

/-- A data plane adds and removes single keys, also when a call fails. -/
structure Environment.Lawful (env : Environment Device) : Prop where
  configure : ∀ key endpoint allowedIPs before after error,
    env.dataPlane.configurePeer key endpoint allowedIPs before = (after, error) →
    after.passed = insert key before.passed ∧ (after.programmed = insert key before.programmed ∨
      error ≠ none ∧ after.programmed = before.programmed)
  remove : ∀ key before after error, env.dataPlane.removePeer key before = (after, error) →
    after.passed = before.passed ∧ (after.programmed = before.programmed.erase key ∨
      error ≠ none ∧ after.programmed = before.programmed)

/-- A call grows the passed keys, and programs at most one key, which it passed. -/
structure Device.Touched (key : Str) (before after : Device) : Prop where
  passed : before.passed ⊆ after.passed
  programmed : ∀ other ∈ after.programmed,
    other ∈ before.programmed ∨ other = key ∧ other ∈ after.passed

/-- The keys without the one that was cached for a name, unless it is the new one. -/
def withoutRotated (state : AgentState Device) (name : NamespacedName) (publicKey : Str) :
    Finset Str :=
  match state.keyIndex.lookup name with
  | some old => if old ≠ publicKey then state.dataPlane.programmed.erase old
      else state.dataPlane.programmed
  | none => state.dataPlane.programmed

section Effects

variable {env : Environment Device} {state : AgentState Device} {peer : MeshPeer}

theorem patchStatus_peer {phase : MeshPeerPhase} {handshake : Int} {message : Str} :
    ∃ status, (patchStatus env peer phase handshake message).1 = { peer with status } := by
  rw [patchStatus]
  split
  · exact ⟨peer.status, rfl⟩
  · exact ⟨_, rfl⟩

theorem fail_peer {message : Str} :
    ∃ status, (fail env state peer message).peer = { peer with status } := patchStatus_peer

theorem fail_error {σ : Type} {env : Environment σ} {state : AgentState σ} {message : Str} :
    (fail env state peer message).error ≠ none := by
  simp only [fail]
  split <;> simp

theorem Environment.Lawful.remove_effect (lawful : env.Lawful) {key : Str} {before after : Device}
    {error : Option Str} (removed : env.dataPlane.removePeer key before = (after, error)) :
    after.passed = before.passed ∧ after.programmed ⊆ before.programmed ∧
      (error = none → after.programmed = before.programmed.erase key) := by
  obtain ⟨passed, effect⟩ := lawful.remove _ _ _ _ removed
  refine ⟨passed, ?_, fun success => effect.resolve_right fun failed => failed.1 success⟩
  rcases effect with erased | ⟨-, kept⟩
  · exact erased ▸ Finset.erase_subset _ _
  · exact kept ▸ Finset.Subset.refl _

theorem removeRotated_effect (lawful : env.Lawful) {publicKey : Str} {after : Device}
    {error : Option Str} (removed : removeRotated env state peer publicKey = (after, error)) :
    after.passed = state.dataPlane.passed ∧
      after.programmed ⊆ state.dataPlane.programmed ∧
      (error = none → after.programmed = withoutRotated state (peerKey peer) publicKey) := by
  rw [removeRotated] at removed
  rw [withoutRotated]
  cases cached : state.keyIndex.lookup (peerKey peer) with
  | some old =>
    rw [cached] at removed
    dsimp only at removed ⊢
    split at removed
    case isTrue rotated =>
      rw [if_pos rotated]
      exact lawful.remove_effect removed
    case isFalse same =>
      rw [if_neg same]
      obtain ⟨rfl, rfl⟩ := Prod.mk.inj removed
      exact ⟨rfl, Finset.Subset.refl _, fun _ => rfl⟩
  | none =>
    rw [cached] at removed
    obtain ⟨rfl, rfl⟩ := Prod.mk.inj removed
    exact ⟨rfl, Finset.Subset.refl _, fun _ => rfl⟩

variable {plan : Plan} {routeCIDRs : List Str} {phase : MeshPeerPhase} {message : Str}

theorem program_touches (lawful : env.Lawful) :
    state.dataPlane.Touched plan.publicKey
      (program env state peer plan routeCIDRs phase message).state.dataPlane := by
  rw [program]
  split
  case h_1 rotated error removed =>
    obtain ⟨passed, programmed, -⟩ := removeRotated_effect lawful removed
    exact ⟨passed ▸ Finset.Subset.refl _, fun other mem => Or.inl (programmed mem)⟩
  case h_2 rotated removed =>
    obtain ⟨passed, programmed, -⟩ := removeRotated_effect lawful removed
    have touched : ∀ {after error},
        env.dataPlane.configurePeer plan.publicKey plan.endpoint routeCIDRs rotated =
          (after, error) → state.dataPlane.Touched plan.publicKey after := by
      intro after error configured
      obtain ⟨after_passed, effect⟩ := lawful.configure _ _ _ _ _ _ configured
      refine ⟨?_, fun other mem => ?_⟩
      · rw [after_passed, passed]
        exact Finset.subset_insert _ _
      · rcases effect with added | ⟨-, kept⟩
        · rw [added, Finset.mem_insert] at mem
          rcases mem with rfl | mem
          · exact Or.inr ⟨rfl, after_passed ▸ Finset.mem_insert_self _ _⟩
          · exact Or.inl (programmed mem)
        · exact Or.inl (programmed (kept ▸ mem))
    split
    case h_1 configured error configured_eq => exact touched configured_eq
    case h_2 configured configured_eq => exact touched configured_eq

/-- Without an error the key is programmed and cached, and the rotated one gone. -/
theorem program_success (lawful : env.Lawful)
    (success : (program env state peer plan routeCIDRs phase message).error = none) :
    (program env state peer plan routeCIDRs phase message).state.keyIndex =
        state.keyIndex.insert (peerKey peer) plan.publicKey ∧
      (program env state peer plan routeCIDRs phase message).state.dataPlane.programmed =
        insert plan.publicKey (withoutRotated state (peerKey peer) plan.publicKey) := by
  rw [program] at success ⊢
  split at success
  case h_1 => exact absurd success fail_error
  case h_2 rotated removed =>
    obtain ⟨-, -, rotated_eq⟩ := removeRotated_effect lawful removed
    split at success
    case h_1 => exact absurd success fail_error
    case h_2 configured configured_eq =>
      obtain ⟨-, effect⟩ := lawful.configure _ _ _ _ _ _ configured_eq
      refine ⟨rfl, ?_⟩
      rw [effect.resolve_right fun failed => failed.1 rfl, rotated_eq rfl]

theorem program_peer :
    ∃ status, (program env state peer plan routeCIDRs phase message).peer =
      { peer with status } := by
  rw [program]
  split
  case h_1 => exact fail_peer
  case h_2 =>
    split
    case h_1 => exact fail_peer
    case h_2 => exact patchStatus_peer

theorem planPeer_publicKey (spec : MeshPeerSpec) (localCIDRs : List Str)
    (keyed : spec.publicKey ≠ []) : (planPeer spec localCIDRs).publicKey = spec.publicKey := by
  rw [planPeer, if_neg keyed]

theorem MeshPeerReconciler.reconcileApply_effect {r : MeshPeerReconciler} (lawful : env.Lawful)
    {result : ApplyResult Device} (applied : r.reconcileApply env state peer = .ok result) :
    (∃ status, result.peer = { peer with status }) ∧
    (result.state.dataPlane = state.dataPlane ∨ peer.spec.publicKey ≠ [] ∧
      state.dataPlane.Touched peer.spec.publicKey result.state.dataPlane) ∧
    (result.error = none → peer.spec.publicKey ≠ [] ∧
      result.state.keyIndex = state.keyIndex.insert (peerKey peer) peer.spec.publicKey ∧
      result.state.dataPlane.programmed =
        insert peer.spec.publicKey (withoutRotated state (peerKey peer) peer.spec.publicKey)) := by
  obtain ⟨_, rfl⟩ | ⟨keyed, _, _, _, -, rfl⟩ := reconcileApply_cases applied
  · exact ⟨fail_peer, Or.inl rfl, fun success => absurd success fail_error⟩
  · rw [← planPeer_publicKey peer.spec r.localCIDRs keyed]
    rw [← planPeer_publicKey peer.spec r.localCIDRs keyed] at keyed
    exact ⟨program_peer, Or.inr ⟨keyed, program_touches lawful⟩,
      fun success => ⟨keyed, program_success lawful success⟩⟩

end Effects

end DatawerxMesh.Controllers
