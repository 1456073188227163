import DatawerxMesh.Controllers.MeshPeerReconcile
import DatawerxMesh.Controllers.PeerRoutes
import Mathlib.Data.Finset.Image

/-!
# Lifecycle of peers

Runs that interleave user actions with reconciliations.  The finalizer removes the key in the spec
and a rotation the cached one, also when the key was edited away or belongs to another peer.
-/

namespace DatawerxMesh.Controllers

open Go Program ApiServer Relation Option

/-- Who acts in a step. -/
inductive PeerEvent where
  | user
  | reconcile
  deriving DecidableEq

/-- The keys of a device after the removal of a key; the empty one is not removed. -/
def Device.without (device : Device) (key : Str) : Finset Str :=
  if key ≠ [] then device.programmed.erase key else device.programmed

section Reconcile

variable {env : Environment Device} {api : PeerApi} {r : MeshPeerReconciler} {name : NamespacedName}
  {state : AgentState Device} {result : ReconcileResult Device}

theorem reconcileGone_effect (lawful : env.Lawful) :
    (reconcileGone env name state).object = none ∧
      (reconcileGone env name state).state.dataPlane.passed = state.dataPlane.passed ∧
      (reconcileGone env name state).state.dataPlane.programmed ⊆ state.dataPlane.programmed := by
  rw [reconcileGone]
  split
  case h_1 => exact ⟨rfl, rfl, Finset.Subset.refl _⟩
  case h_2 key cached =>
    split
    case h_1 after error removed =>
      obtain ⟨passed, shrinks, -⟩ := lawful.remove_effect removed
      exact ⟨rfl, passed, shrinks⟩
    case h_2 after removed =>
      obtain ⟨passed, shrinks, -⟩ := lawful.remove_effect removed
      exact ⟨rfl, passed, shrinks⟩

/-- The call fails and keeps the object, or removes the key and takes the finalizer away. -/
theorem reconcileDelete_effect (lawful : env.Lawful) (api : PeerApi) (state : AgentState Device)
    {held : HeldPeer} (finalized : meshPeerFinalizer ∈ held.finalizers) :
    (reconcileDelete env api held state).state.dataPlane.passed = state.dataPlane.passed ∧
    (reconcileDelete env api held state).state.dataPlane.programmed ⊆
      state.dataPlane.programmed ∧
    ((reconcileDelete env api held state).object = some held ∨
      (reconcileDelete env api held state).error = none ∧
      (reconcileDelete env api held state).object =
        held.update (held.finalizers.filter (· ≠ meshPeerFinalizer)) held.body ∧
      (reconcileDelete env api held state).state.dataPlane.programmed =
        state.dataPlane.without held.body.spec.publicKey) := by
  obtain ⟨⟨after, error⟩, removal_eq⟩ : ∃ removal, removal =
      if held.body.spec.publicKey ≠ [] then
        env.dataPlane.removePeer held.body.spec.publicKey state.dataPlane
      else (state.dataPlane, none) := ⟨_, rfl⟩
  have effect : after.passed = state.dataPlane.passed ∧
      after.programmed ⊆ state.dataPlane.programmed ∧
      (error = none → after.programmed = state.dataPlane.without held.body.spec.publicKey) := by
    rw [Device.without]
    split at removal_eq
    case isTrue keyed =>
      obtain ⟨passed, shrinks, erased⟩ := lawful.remove_effect removal_eq.symm
      exact ⟨passed, shrinks, fun success => by rw [if_pos keyed, erased success]⟩
    case isFalse keyless =>
      obtain ⟨rfl, rfl⟩ := Prod.mk.inj removal_eq
      exact ⟨rfl, Finset.Subset.refl _, fun _ => by rw [if_neg keyless]⟩
  obtain ⟨passed, shrinks, removed⟩ := effect
  rw [reconcileDelete, if_pos finalized]
  simp only [← removal_eq]
  cases error with
  | some error => exact ⟨passed, shrinks, Or.inl rfl⟩
  | none =>
    cases api.updateError with
    | some error => exact ⟨passed, shrinks, Or.inl rfl⟩
    | none => exact ⟨passed, shrinks, Or.inr ⟨rfl, rfl, removed rfl⟩⟩

theorem MeshPeerReconciler.reconcile_cases (lawful : env.Lawful) {object : Option HeldPeer}
    (returned : r.reconcile env api name object state = .ok result) :
    (result.object = object ∧ result.state.dataPlane = state.dataPlane) ∨
    (object = none ∧ result.object = none ∧
      result.state.dataPlane.passed = state.dataPlane.passed ∧
      result.state.dataPlane.programmed ⊆ state.dataPlane.programmed) ∨
    (∃ held, object = some held ∧ held.deleting = true ∧ meshPeerFinalizer ∈ held.finalizers ∧
      result = reconcileDelete env api held state) ∨
    (∃ held, object = some held ∧ result.state.dataPlane = state.dataPlane ∧
      meshPeerFinalizer ∉ held.finalizers ∧
      result.object = held.update (held.finalizers ++ [meshPeerFinalizer]) held.body) ∨
    ∃ held body, object = some held ∧ meshPeerFinalizer ∈ held.finalizers ∧
      result.object = some (held.withBody body) ∧
      (result.state.dataPlane = state.dataPlane ∨ held.body.spec.publicKey ≠ [] ∧
        state.dataPlane.Touched held.body.spec.publicKey result.state.dataPlane) := by
  unfold reconcile at returned
  split at returned
  case h_1 =>
    obtain rfl := Outcome.ok.inj returned
    exact Or.inl ⟨rfl, rfl⟩
  case h_2 =>
    split at returned
    case h_1 =>
      obtain rfl := Outcome.ok.inj returned
      exact Or.inr (Or.inl ⟨rfl, reconcileGone_effect lawful⟩)
    case h_2 held =>
      split at returned
      case isTrue deleting =>
        obtain rfl := Outcome.ok.inj returned
        by_cases finalized : meshPeerFinalizer ∈ held.finalizers
        · exact Or.inr (Or.inr (Or.inl ⟨held, rfl, deleting, finalized, rfl⟩))
        · rw [reconcileDelete, if_neg finalized]
          exact Or.inl ⟨rfl, rfl⟩
      case isFalse live =>
        split at returned
        case isTrue missing =>
          obtain rfl := Outcome.ok.inj returned
          rw [addFinalizer]
          split
          case h_1 => exact Or.inl ⟨rfl, rfl⟩
          case h_2 => exact Or.inr (Or.inr (Or.inr (Or.inl ⟨held, rfl, rfl, missing, rfl⟩)))
        case isFalse present =>
          rw [not_not] at present
          obtain ⟨applied, applied_eq, rest⟩ := Outcome.bind_eq_ok.mp returned
          obtain rfl := Outcome.ok.inj rest
          obtain ⟨-, device, -⟩ := reconcileApply_effect lawful applied_eq
          exact Or.inr (Or.inr (Or.inr (Or.inr ⟨held, _, rfl, present, rfl, device⟩)))

end Reconcile

/-- One name: its object, the process, and whether a call has succeeded since the object went. -/
structure Tunnel where
  object : Option HeldPeer
  agent : AgentState Device
  settled : Bool

/-- Before the object is created, with a process that has just started. -/
def Tunnel.start : Tunnel := ⟨none, ⟨⟨∅, ∅⟩, ∅⟩, false⟩

/-- Steps of one name.  Every call may fail. -/
inductive TunnelStep (r : MeshPeerReconciler) (name : NamespacedName) :
    PeerEvent → Tunnel → Tunnel → Prop
  | create (agent : AgentState Device) (settled : Bool) (finalizers : List Str) (peer : MeshPeer)
      (named : peerKey peer = name) :
      TunnelStep r name .user ⟨none, agent, settled⟩ ⟨some (.create finalizers peer), agent, false⟩
  | edit (held : HeldPeer) (agent : AgentState Device) (settled : Bool) (spec : MeshPeerSpec) :
      TunnelStep r name .user ⟨some held, agent, settled⟩
        ⟨some (held.withBody { held.body with spec, generation := held.body.generation + 1 }),
          agent, settled⟩
  | delete (held : HeldPeer) (agent : AgentState Device) (settled : Bool) :
      TunnelStep r name .user ⟨some held, agent, settled⟩ ⟨held.requestDelete, agent, settled⟩
  | reconcile {before : Tunnel} {env : Environment Device} (lawful : env.Lawful) (api : PeerApi)
      {result : ReconcileResult Device}
      (returned : r.reconcile env api name before.object before.agent = .ok result) :
      TunnelStep r name .reconcile before ⟨result.object, result.state,
          before.settled || (result.object.isNone && result.error.isNone)⟩

/-- Once the object is gone and a call has succeeded, no passed key is left. -/
def Tunnel.NoOrphan (tunnel : Tunnel) : Prop :=
  tunnel.object = none → tunnel.settled = true →
    ∀ key ∈ tunnel.agent.dataPlane.passed, key ∉ tunnel.agent.dataPlane.programmed

/-- When the finalizer is about to run, only the key in the spec is programmed. -/
def Tunnel.FinalizesAll (tunnel : Tunnel) : Prop :=
  ∀ held, tunnel.object = some held → held.deleting = true → meshPeerFinalizer ∈ held.finalizers →
    ∀ key ∈ tunnel.agent.dataPlane.programmed, key = held.body.spec.publicKey

/-- The finalizer always removes the only programmed key. -/
def TunnelStep.Guarded (r : MeshPeerReconciler) (name : NamespacedName) (before after : Tunnel) :
    Prop :=
  ∃ event, TunnelStep r name event before after ∧ (event = .reconcile → before.FinalizesAll)

/-- Programmed keys were passed and are not empty. -/
structure Tunnel.Tracked (tunnel : Tunnel) : Prop where
  passed : tunnel.agent.dataPlane.programmed ⊆ tunnel.agent.dataPlane.passed
  keyed : [] ∉ tunnel.agent.dataPlane.programmed

/-- While a key is programmed, the object is there with the finalizer. -/
def Tunnel.Finalized (tunnel : Tunnel) : Prop :=
  ∀ key ∈ tunnel.agent.dataPlane.programmed,
    ∃ held, tunnel.object = some held ∧ meshPeerFinalizer ∈ held.finalizers

section OnePeer

variable {r : MeshPeerReconciler} {name : NamespacedName} {event : PeerEvent}
  {before after : Tunnel}

theorem Device.Touched.tracked {key : Str} {device after : Device} (keyed : key ≠ [])
    (touched : device.Touched key after)
    (passed : device.programmed ⊆ device.passed) (no_empty : [] ∉ device.programmed) :
    after.programmed ⊆ after.passed ∧ [] ∉ after.programmed := by
  constructor
  · intro other mem
    rcases touched.programmed other mem with old | ⟨-, new⟩
    · exact touched.passed (passed old)
    · exact new
  · intro empty
    rcases touched.programmed [] empty with old | ⟨same, -⟩
    · exact no_empty old
    · exact keyed same.symm

theorem TunnelStep.tracked (step : TunnelStep r name event before after)
    (tracked : before.Tracked) : after.Tracked := by
  cases step with
  | create | edit | delete => exact ⟨tracked.passed, tracked.keyed⟩
  | reconcile lawful api returned =>
    obtain ⟨-, same⟩ | ⟨-, -, passed, shrinks⟩ | ⟨held, -, -, finalized, rfl⟩ |
      ⟨held, -, same, -⟩ | ⟨held, body, -, -, -, same | ⟨keyed, touched⟩⟩ :=
      MeshPeerReconciler.reconcile_cases lawful returned
    · exact ⟨same ▸ tracked.passed, same ▸ tracked.keyed⟩
    · exact ⟨passed ▸ shrinks.trans tracked.passed, fun empty => tracked.keyed (shrinks empty)⟩
    · obtain ⟨passed, shrinks, -⟩ := reconcileDelete_effect lawful api before.agent finalized
      exact ⟨passed ▸ shrinks.trans tracked.passed, fun empty => tracked.keyed (shrinks empty)⟩
    · exact ⟨same ▸ tracked.passed, same ▸ tracked.keyed⟩
    · exact ⟨same ▸ tracked.passed, same ▸ tracked.keyed⟩
    · obtain ⟨passed, no_empty⟩ := touched.tracked keyed tracked.passed tracked.keyed
      exact ⟨passed, no_empty⟩

theorem TunnelStep.Guarded.tracked (guarded : TunnelStep.Guarded r name before after)
    (tracked : before.Tracked) : after.Tracked := by
  obtain ⟨event, step, -⟩ := guarded
  exact TunnelStep.tracked step tracked

theorem TunnelStep.Guarded.finalized (guarded : TunnelStep.Guarded r name before after)
    (tracked : before.Tracked) (finalized : before.Finalized) : after.Finalized := by
  obtain ⟨event, step, finalizes⟩ := guarded
  cases step with
  | create agent settled finalizers peer named =>
    intro key mem
    obtain ⟨held, impossible, -⟩ := finalized key mem
    cases impossible
  | edit held agent settled spec =>
    intro key mem
    obtain ⟨other, same, has⟩ := finalized key mem
    obtain rfl := Option.some.inj same
    exact ⟨_, rfl, has⟩
  | delete held agent settled =>
    intro key mem
    obtain ⟨other, same, has⟩ := finalized key mem
    obtain rfl := Option.some.inj same
    refine ⟨{ held with deleting := true, kept := fun _ => List.ne_nil_of_mem has }, ?_, has⟩
    rw [Held.requestDelete, dif_pos (List.ne_nil_of_mem has)]
  | reconcile lawful api returned =>
    obtain ⟨same_object, same⟩ | ⟨gone, -, -, shrinks⟩ | ⟨held, object_eq, deleting, has, rfl⟩ |
      ⟨held, object_eq, same, missing, -⟩ | ⟨held, body, -, has, object_eq, -⟩ :=
      MeshPeerReconciler.reconcile_cases lawful returned
    · intro key mem
      rw [same] at mem
      obtain ⟨held, object_eq, has⟩ := finalized key mem
      exact ⟨held, same_object.trans object_eq, has⟩
    · intro key mem
      obtain ⟨held, impossible, -⟩ := finalized key (shrinks mem)
      rw [gone] at impossible
      cases impossible
    · -- The finalizer is kept, or the only programmed key has been removed.
      intro key mem
      obtain ⟨-, shrinks, kept | ⟨-, -, removed⟩⟩ :=
        reconcileDelete_effect lawful api before.agent has
      · exact ⟨held, kept, has⟩
      · exfalso
        have only := finalizes rfl held object_eq deleting has key (shrinks mem)
        have nonempty : held.body.spec.publicKey ≠ [] := by
          rintro empty
          rw [empty] at only
          exact tracked.keyed (only ▸ shrinks mem)
        rw [removed, Device.without, if_pos nonempty, only] at mem
        exact Finset.notMem_erase _ _ mem
    · intro key mem
      rw [same] at mem
      obtain ⟨other, other_eq, has⟩ := finalized key mem
      obtain rfl := Option.some.inj (object_eq.symm.trans other_eq)
      exact absurd has missing
    · exact fun key mem => ⟨_, object_eq, has⟩

theorem Tunnel.tracked_start : Tunnel.start.Tracked :=
  ⟨Finset.Subset.refl _, Finset.notMem_empty _⟩

theorem Tunnel.tracked_of_reached {tunnel : Tunnel}
    (reached : ReflTransGen (fun before after => ∃ event, TunnelStep r name event before after)
      Tunnel.start tunnel) : tunnel.Tracked := by
  induction reached with
  | refl => exact Tunnel.tracked_start
  | tail _ step ih =>
    obtain ⟨event, taken⟩ := step
    exact taken.tracked ih

theorem Device.mem_without {device : Device} {key other : Str} (mem : key ∈ device.programmed)
    (differs : key ≠ other) : key ∈ device.without other := by
  rw [Device.without]
  split
  · exact Finset.mem_erase.mpr ⟨differs, mem⟩
  · exact mem

end OnePeer

/-- In runs in which the finalizer always finds only the key of the spec programmed, no tunnel is
orphaned.  A finalizer that finds another key orphans it. -/
theorem no_orphaned_tunnel (r : MeshPeerReconciler) (name : NamespacedName) (tunnel : Tunnel) :
    (ReflTransGen (TunnelStep.Guarded r name) Tunnel.start tunnel → tunnel.NoOrphan) ∧
    (ReflTransGen (fun before after => ∃ event, TunnelStep r name event before after)
        Tunnel.start tunnel → ¬ tunnel.FinalizesAll →
      ∀ after, TunnelStep r name .reconcile tunnel after → after.object = none →
        ¬ after.NoOrphan) := by
  constructor
  · intro reached
    have kept : tunnel.Tracked ∧ tunnel.Finalized := by
      induction reached with
      | refl =>
        exact ⟨Tunnel.tracked_start, fun key mem => absurd mem (Finset.notMem_empty _)⟩
      | tail _ step ih => exact ⟨step.tracked ih.1, step.finalized ih.1 ih.2⟩
    intro gone _ key _ mem
    obtain ⟨held, there, -⟩ := kept.2 key mem
    rw [gone] at there
    cases there
  · intro reached other after step gone orphan
    have tracked := Tunnel.tracked_of_reached reached
    simp only [Tunnel.FinalizesAll, not_forall] at other
    obtain ⟨held, object_eq, deleting, has, key, mem, differs⟩ := other
    cases step with
    | @reconcile _ env lawful api result returned =>
      obtain ⟨same_object, -⟩ | ⟨none_eq, -⟩ | ⟨_, same_held, -, -, rfl⟩ |
        ⟨_, same_held, -, missing, -⟩ | ⟨_, _, _, -, still_there, -⟩ :=
        MeshPeerReconciler.reconcile_cases lawful returned
      · cases object_eq.symm.trans (same_object.symm.trans gone)
      · cases object_eq.symm.trans none_eq
      · obtain rfl := Option.some.inj (object_eq.symm.trans same_held)
        obtain ⟨passed, -, still_there | ⟨returned_nil, -, removed⟩⟩ :=
          reconcileDelete_effect lawful api tunnel.agent has
        · cases still_there.symm.trans gone
        · have object_none : (reconcileDelete env api held tunnel.agent).object = none := gone
          refine orphan gone (by simp [object_none, returned_nil]) key ?_ ?_
          · exact passed ▸ tracked.passed mem
          · exact removed ▸ Device.mem_without mem differs
      · obtain rfl := Option.some.inj (object_eq.symm.trans same_held)
        exact missing has
      · cases still_there.symm.trans gone

/-- A device on which all calls succeed. -/
def deviceEnvironment : Environment Device where
  dataPlane := {
    configurePeer := fun key _ _ device =>
      (⟨insert key device.programmed, insert key device.passed⟩, none)
    removePeer := fun key device => (⟨device.programmed.erase key, device.passed⟩, none)
    peerHandshake := fun _ _ => .ok 0 }
  patch := fun _ => none
  quote := id

theorem deviceEnvironment_lawful : deviceEnvironment.Lawful where
  configure key endpoint allowedIPs before after error configured := by
    obtain ⟨rfl, rfl⟩ := Prod.mk.inj configured
    exact ⟨rfl, Or.inl rfl⟩
  remove key before after error removed := by
    obtain ⟨rfl, rfl⟩ := Prod.mk.inj removed
    exact ⟨rfl, Or.inl rfl⟩

/-- The name of the peer in the runs below. -/
def eastName : NamespacedName := ([], "east")

/-- A peer with the given key. -/
def eastPeer (publicKey : Str) : MeshPeer where
  namespace_ := []
  name := "east"
  generation := 1
  spec := ⟨"east", publicKey, [], ["10.40.0.0/16"], []⟩
  status := ⟨.unset, 0, [], 0⟩

namespace Tunnel

/-- A user creates the object. -/
def created (tunnel : Tunnel) (publicKey : Str) : Tunnel :=
  ⟨some (.create [] (eastPeer publicKey)), tunnel.agent, false⟩

/-- A user changes the key. -/
def edited (tunnel : Tunnel) (publicKey : Str) : Tunnel :=
  ⟨tunnel.object.map fun held => held.withBody { held.body with
    spec := (eastPeer publicKey).spec, generation := held.body.generation + 1 },
    tunnel.agent, tunnel.settled⟩

/-- A user deletes the object. -/
def deleted (tunnel : Tunnel) : Tunnel :=
  ⟨tunnel.object.bind Held.requestDelete, tunnel.agent, tunnel.settled⟩

/-- A reconcile without failures. -/
def reconciled (tunnel : Tunnel) : Tunnel :=
  match agentA.reconcile deviceEnvironment ⟨none, none⟩ eastName tunnel.object tunnel.agent with
  | .ok result => ⟨result.object, result.state,
      tunnel.settled || (result.object.isNone && result.error.isNone)⟩
  | _ => tunnel

/-- A tunnel that has been set up. -/
def connected : Tunnel := (start.created "key-1").reconciled.reconciled

end Tunnel

theorem finalizesAll_of_check {tunnel : Tunnel}
    (check : (tunnel.object.all fun held => !held.deleting ||
      decide (∀ key ∈ tunnel.agent.dataPlane.programmed, key = held.body.spec.publicKey)) = true) :
    tunnel.FinalizesAll := by
  intro held object_eq deleting _
  rw [object_eq, all_some, deleting, Bool.not_true, Bool.false_or, decide_eq_true_eq] at check
  exact check

section Runs

variable {tunnel : Tunnel}

theorem guarded_created (publicKey : Str) :
    TunnelStep.Guarded agentA eastName Tunnel.start (Tunnel.start.created publicKey) :=
  ⟨.user, .create _ _ [] (eastPeer publicKey) rfl, by simp⟩

theorem guarded_edited (publicKey : Str) :
    ReflTransGen (TunnelStep.Guarded agentA eastName) tunnel (tunnel.edited publicKey) := by
  obtain ⟨object, agent, settled⟩ := tunnel
  cases object with
  | none => exact .refl
  | some held => exact .single ⟨.user, .edit held agent settled _, by simp⟩

theorem guarded_deleted :
    ReflTransGen (TunnelStep.Guarded agentA eastName) tunnel tunnel.deleted := by
  obtain ⟨object, agent, settled⟩ := tunnel
  cases object with
  | none => exact .refl
  | some held => exact .single ⟨.user, .delete held agent settled, by simp⟩

theorem step_reconciled (tunnel : Tunnel) : tunnel.reconciled = tunnel ∨
    TunnelStep agentA eastName .reconcile tunnel tunnel.reconciled := by
  rw [Tunnel.reconciled]
  split
  case h_1 result returned => exact Or.inr (.reconcile deviceEnvironment_lawful _ returned)
  case h_2 => exact Or.inl rfl

theorem reaches_reconciled (tunnel : Tunnel) :
    ReflTransGen (fun before after => ∃ event, TunnelStep agentA eastName event before after)
      tunnel tunnel.reconciled := by
  rcases step_reconciled tunnel with same | step
  · rw [same]
  · exact .single ⟨.reconcile, step⟩

theorem guarded_reconciled (finalizes : tunnel.FinalizesAll) :
    ReflTransGen (TunnelStep.Guarded agentA eastName) tunnel tunnel.reconciled := by
  rcases step_reconciled tunnel with same | step
  · rw [same]
  · exact .single ⟨.reconcile, step, fun _ => finalizes⟩

theorem guarded_connected :
    ReflTransGen (TunnelStep.Guarded agentA eastName) Tunnel.start Tunnel.connected := by
  have finalizer_added : ReflTransGen (TunnelStep.Guarded agentA eastName)
      (Tunnel.start.created "key-1") (Tunnel.start.created "key-1").reconciled :=
    guarded_reconciled (finalizesAll_of_check (by decide +kernel))
  exact .head (guarded_created "key-1")
    (finalizer_added.trans (guarded_reconciled (finalizesAll_of_check (by decide +kernel))))

end Runs

theorem no_orphaned_tunnel_unchanged_key :
    Tunnel.connected.deleted.reconciled.object = none ∧
    Tunnel.connected.deleted.reconciled.settled = true ∧
    str "key-1" ∈ Tunnel.connected.deleted.reconciled.agent.dataPlane.passed ∧
    Tunnel.connected.deleted.reconciled.NoOrphan := by
  refine ⟨?_, by decide +kernel, by decide +kernel, ?_⟩
  · exact isNone_iff_eq_none.mp (by decide +kernel)
  · have before_last := guarded_connected.trans guarded_deleted
    exact (no_orphaned_tunnel agentA eastName _).1
      (before_last.trans (guarded_reconciled (finalizesAll_of_check (by decide +kernel))))

/-- The key of a connected peer is edited and the object deleted, and all calls succeed.  The old
key stays programmed, also after a reconciliation that finds no object. -/
theorem edited_key_orphaned :
    ReflTransGen (fun before after => ∃ event, TunnelStep agentA eastName event before after)
      Tunnel.start (Tunnel.connected.edited "key-2").deleted.reconciled.reconciled ∧
    (Tunnel.connected.edited "key-2").deleted.reconciled.object = none ∧
    ¬ (Tunnel.connected.edited "key-2").deleted.reconciled.reconciled.NoOrphan := by
  refine ⟨?_, isNone_iff_eq_none.mp (by decide +kernel), fun orphan => ?_⟩
  · have before_last : ReflTransGen (TunnelStep.Guarded agentA eastName) Tunnel.start
        (Tunnel.connected.edited "key-2").deleted :=
      guarded_connected.trans ((guarded_edited _).trans guarded_deleted)
    refine ReflTransGen.trans (ReflTransGen.mono (fun _ _ guarded => ?_) _ _ before_last)
      ((reaches_reconciled _).trans (reaches_reconciled _))
    obtain ⟨event, step, -⟩ := guarded
    exact ⟨event, step⟩
  · exact orphan (isNone_iff_eq_none.mp (by decide +kernel)) (by decide +kernel)
      "key-1" (by decide +kernel) (by decide +kernel)

end DatawerxMesh.Controllers
