import DatawerxMesh.Controllers.PeerLifecycle

/-!
# Keys that move between peers

All peers share the keys of one device.  The rotation of a peer removes the key that was cached for
it, and by then another peer may have been reconciled with that key.
-/

namespace DatawerxMesh.Controllers

open Go Program ApiServer Relation Function

/-- A process with many peers, and whether the latest spec of each has been applied. -/
structure Fleet where
  objects : NamespacedName → HeldPeer
  agent : AgentState Device
  applied : NamespacedName → Bool

namespace Fleet

/-- The key that an object asks for. -/
def key (fleet : Fleet) (name : NamespacedName) : Str := (fleet.objects name).body.spec.publicKey

/-- No two peers carry the same key. -/
def DistinctKeys (names : Finset NamespacedName) (fleet : Fleet) : Prop :=
  ∀ name ∈ names, ∀ other ∈ names, fleet.key name = fleet.key other → name = other

/-- A user writes a new spec. -/
def edit (fleet : Fleet) (name : NamespacedName) (spec : MeshPeerSpec) : Fleet where
  objects := Function.update fleet.objects name ((fleet.objects name).withBody
    { (fleet.objects name).body with
      spec, generation := (fleet.objects name).body.generation + 1 })
  agent := fleet.agent
  applied := Function.update fleet.applied name false

/-- The named objects exist and are not being deleted. -/
structure Stored (names : Finset NamespacedName) (fleet : Fleet) : Prop where
  named : ∀ name ∈ names, peerKey (fleet.objects name).body = name
  live : ∀ name ∈ names, (fleet.objects name).deleting = false

/-- Before the first reconciliation. -/
structure Fresh (names : Finset NamespacedName) (fleet : Fleet) : Prop extends
    Stored names fleet where
  distinct : fleet.DistinctKeys names
  agent : fleet.agent = ⟨⟨∅, ∅⟩, ∅⟩
  applied : ∀ name, fleet.applied name = false

/-- Once every latest spec is applied, the device has exactly the keys of the specs. -/
def InSync (names : Finset NamespacedName) (fleet : Fleet) : Prop :=
  (∀ name ∈ names, fleet.applied name = true) →
    fleet.agent.dataPlane.programmed = names.image fleet.key

/-- The key that a reconciliation removes is not that of a peer whose latest spec is applied. -/
def KeepsKeys (names : Finset NamespacedName) (fleet : Fleet) (name : NamespacedName) : Prop :=
  meshPeerFinalizer ∈ (fleet.objects name).finalizers →
    ∀ old, fleet.agent.keyIndex.lookup name = some old → old ≠ fleet.key name →
      ∀ other ∈ names, fleet.applied other = true → fleet.key other ≠ old

end Fleet

/-- Steps of a process: an edit that keeps the keys distinct, or a successful call. -/
inductive FleetStep (r : MeshPeerReconciler) (names : Finset NamespacedName) :
    PeerEvent → NamespacedName → Fleet → Fleet → Prop
  | edit {fleet : Fleet} {name : NamespacedName} (mem : name ∈ names) (spec : MeshPeerSpec)
      (distinct : (fleet.edit name spec).DistinctKeys names) :
      FleetStep r names .user name fleet (fleet.edit name spec)
  | reconcile {fleet : Fleet} {name : NamespacedName} (mem : name ∈ names)
      {env : Environment Device} (lawful : env.Lawful) (api : PeerApi)
      {result : ReconcileResult Device} {stored : HeldPeer}
      (returned : r.reconcile env api name (some (fleet.objects name)) fleet.agent = .ok result)
      (success : result.error = none) (stored_eq : result.object = some stored) :
      FleetStep r names .reconcile name fleet
        ⟨Function.update fleet.objects name stored, result.state,
          if meshPeerFinalizer ∈ (fleet.objects name).finalizers then
            Function.update fleet.applied name true
          else fleet.applied⟩

/-- No reconciliation removes a key that another peer needs. -/
def FleetStep.Guarded (r : MeshPeerReconciler) (names : Finset NamespacedName)
    (before after : Fleet) : Prop :=
  ∃ event name, FleetStep r names event name before after ∧
    (event = .reconcile → before.KeepsKeys names name)

section Call

variable {env : Environment Device} {api : PeerApi} {r : MeshPeerReconciler} {name : NamespacedName}
  {state : AgentState Device} {result : ReconcileResult Device} {held : HeldPeer}

/-- A successful call on a live object adds the finalizer, or programs the key of the spec. -/
theorem MeshPeerReconciler.reconcile_success (lawful : env.Lawful) (live : held.deleting = false)
    (returned : r.reconcile env api name (some held) state = .ok result)
    (success : result.error = none) :
    (∃ stored, result.object = some stored ∧ stored.deleting = false ∧
      ∃ status, stored.body = { held.body with status }) ∧
    (meshPeerFinalizer ∉ held.finalizers ∧ result.state = state ∨
      meshPeerFinalizer ∈ held.finalizers ∧
      result.state.keyIndex =
        state.keyIndex.insert (peerKey held.body) held.body.spec.publicKey ∧
      result.state.dataPlane.programmed = insert held.body.spec.publicKey
        (withoutRotated state (peerKey held.body) held.body.spec.publicKey)) := by
  unfold reconcile at returned
  split at returned
  case h_1 =>
    obtain rfl := Outcome.ok.inj returned
    cases success
  case h_2 =>
    simp only [live] at returned
    split at returned
    case isTrue impossible => cases impossible
    case isFalse =>
      split at returned
      case isTrue missing =>
        obtain rfl := Outcome.ok.inj returned
        rw [addFinalizer] at success ⊢
        split at success
        case h_1 => cases success
        case h_2 =>
          refine ⟨⟨⟨held.finalizers ++ [meshPeerFinalizer], false, held.body, by simp⟩, ?_, rfl,
            held.body.status, rfl⟩, Or.inl ⟨missing, rfl⟩⟩
          simp [Held.update, live]
      case isFalse present =>
        rw [not_not] at present
        obtain ⟨applied, applied_eq, rest⟩ := Outcome.bind_eq_ok.mp returned
        obtain rfl := Outcome.ok.inj rest
        obtain ⟨⟨status, peer_eq⟩, -, programmed⟩ := reconcileApply_effect lawful applied_eq
        obtain ⟨-, cached, device⟩ := programmed success
        refine ⟨⟨_, rfl, live, ?_⟩, Or.inr ⟨present, cached, device⟩⟩
        rw [Held.withBody]
        split
        case isTrue => exact ⟨status, peer_eq⟩
        case isFalse => exact ⟨held.body.status, rfl⟩

end Call

namespace Fleet

variable {r : MeshPeerReconciler} {names : Finset NamespacedName} {fleet after : Fleet}
  {event : PeerEvent} {name : NamespacedName}

theorem reconcile_effect (stored : fleet.Stored names)
    (step : FleetStep r names .reconcile name fleet after) :
    name ∈ names ∧ after.key = fleet.key ∧ after.Stored names ∧
    (meshPeerFinalizer ∉ (fleet.objects name).finalizers ∧ after.agent = fleet.agent ∧
        after.applied = fleet.applied ∨
      meshPeerFinalizer ∈ (fleet.objects name).finalizers ∧
      after.applied = Function.update fleet.applied name true ∧
      after.agent.keyIndex = fleet.agent.keyIndex.insert name (fleet.key name) ∧
      after.agent.dataPlane.programmed =
        insert (fleet.key name) (withoutRotated fleet.agent name (fleet.key name))) := by
  cases step with
  | @reconcile _ _ mem env lawful api result held returned success stored_eq =>
    obtain ⟨⟨kept, kept_eq, live, status, body_eq⟩, effect⟩ :=
      MeshPeerReconciler.reconcile_success lawful (stored.live name mem) returned success
    obtain rfl := Option.some.inj (stored_eq.symm.trans kept_eq)
    have named : peerKey held.body = name := by
      rw [body_eq]
      exact stored.named name mem
    refine ⟨mem, ?_, ⟨fun other in_names => ?_, fun other in_names => ?_⟩, ?_⟩
    · funext other
      by_cases same : other = name
      · subst same
        simp [key, body_eq]
      · simp [key, update_of_ne same]
    · by_cases same : other = name
      · subst same
        simpa using named
      · simpa [update_of_ne same] using stored.named other in_names
    · by_cases same : other = name
      · subst same
        simpa using live
      · simpa [update_of_ne same] using stored.live other in_names
    · rw [stored.named name mem] at effect
      rcases effect with ⟨missing, state_eq⟩ | ⟨present, cached, device⟩
      · exact Or.inl ⟨missing, state_eq, if_neg missing⟩
      · exact Or.inr ⟨present, if_pos present, cached, device⟩

theorem edit_stored (stored : fleet.Stored names) (spec : MeshPeerSpec) :
    (fleet.edit name spec).Stored names := by
  refine ⟨fun other in_names => ?_, fun other in_names => ?_⟩
  · by_cases same : other = name
    · subst same
      simpa [edit, Held.withBody, peerKey] using stored.named other in_names
    · simpa [edit, update_of_ne same] using stored.named other in_names
  · by_cases same : other = name
    · subst same
      simpa [edit, Held.withBody] using stored.live other in_names
    · simpa [edit, update_of_ne same] using stored.live other in_names

theorem step_stored (step : FleetStep r names event name fleet after)
    (stored : fleet.Stored names) : after.Stored names := by
  cases event with
  | user =>
    cases step with
    | edit mem spec distinct => exact edit_stored stored spec
  | reconcile => exact (reconcile_effect stored step).2.2.1

/-- Applied keys are cached and programmed, and programmed keys are cached. -/
structure Consistent (names : Finset NamespacedName) (fleet : Fleet) : Prop extends
    Stored names fleet where
  current : ∀ name ∈ names, fleet.applied name = true →
    fleet.agent.keyIndex.lookup name = some (fleet.key name) ∧
      fleet.key name ∈ fleet.agent.dataPlane.programmed
  cached : ∀ key ∈ fleet.agent.dataPlane.programmed,
    ∃ name ∈ names, fleet.agent.keyIndex.lookup name = some key

theorem Fresh.consistent (fresh : fleet.Fresh names) : fleet.Consistent names := by
  refine ⟨fresh.toStored, fun name _ applied => ?_, fun key mem => ?_⟩
  · rw [fresh.applied name] at applied
    cases applied
  · rw [fresh.agent] at mem
    exact absurd mem (Finset.notMem_empty key)

theorem edit_consistent (consistent : fleet.Consistent names) (spec : MeshPeerSpec) :
    (fleet.edit name spec).Consistent names := by
  refine ⟨edit_stored consistent.toStored spec, fun other in_names applied => ?_, consistent.cached⟩
  by_cases same : other = name
  · subst same
    simp [edit] at applied
  · have was_applied : fleet.applied other = true := by
      simpa [edit, update_of_ne same] using applied
    have key_eq : (fleet.edit name spec).key other = fleet.key other := by
      simp [key, edit, update_of_ne same]
    rw [key_eq]
    exact consistent.current other in_names was_applied

theorem mem_withoutRotated {publicKey key : Str} :
    key ∈ withoutRotated fleet.agent name publicKey ↔ key ∈ fleet.agent.dataPlane.programmed ∧
      (fleet.agent.keyIndex.lookup name = some key → key = publicKey) := by
  rw [withoutRotated]
  cases cached : fleet.agent.keyIndex.lookup name with
  | none => simp
  | some old =>
    by_cases rotated : old = publicKey
    · simp only [rotated, ne_eq, not_true_eq_false, if_false, Option.some.injEq]
      exact ⟨fun mem => ⟨mem, Eq.symm⟩, And.left⟩
    · simp only [ne_eq, rotated, not_false_eq_true, if_true, Finset.mem_erase, Option.some.injEq]
      constructor
      · rintro ⟨differs, mem⟩
        exact ⟨mem, fun same => absurd same.symm differs⟩
      · rintro ⟨mem, own_only⟩
        exact ⟨fun same => rotated (same ▸ own_only same.symm), mem⟩

theorem reconcile_consistent (consistent : fleet.Consistent names)
    (keeps : fleet.KeepsKeys names name)
    (step : FleetStep r names .reconcile name fleet after) : after.Consistent names := by
  obtain ⟨mem, key_eq, stored, ⟨-, agent_eq, applied_eq⟩ |
    ⟨present, applied_eq, cached_eq, device⟩⟩ := reconcile_effect consistent.toStored step
  · refine ⟨stored, ?_, ?_⟩
    · rw [key_eq, agent_eq, applied_eq]
      exact consistent.current
    · rw [agent_eq]
      exact consistent.cached
  · refine ⟨stored, fun other in_names applied => ?_, fun key programmed => ?_⟩
    · rw [key_eq, cached_eq, device]
      by_cases same : other = name
      · subst same
        exact ⟨AList.lookup_insert _, Finset.mem_insert_self _ _⟩
      · rw [applied_eq, update_of_ne same] at applied
        obtain ⟨cached, programmed⟩ := consistent.current other in_names applied
        refine ⟨by rw [AList.lookup_insert_ne same, cached], Finset.mem_insert_of_mem ?_⟩
        refine mem_withoutRotated.mpr ⟨programmed, fun rotated => ?_⟩
        by_contra differs
        exact keeps present _ rotated differs other in_names applied rfl
    · rw [cached_eq]
      rw [device, Finset.mem_insert] at programmed
      rcases programmed with rfl | programmed
      · exact ⟨name, mem, AList.lookup_insert _⟩
      · obtain ⟨was_programmed, own_only⟩ := mem_withoutRotated.mp programmed
        obtain ⟨other, in_names, cached⟩ := consistent.cached key was_programmed
        by_cases same : other = name
        · subst same
          refine ⟨other, mem, ?_⟩
          rw [AList.lookup_insert, own_only cached]
        · exact ⟨other, in_names, by rw [AList.lookup_insert_ne same, cached]⟩

theorem guarded_consistent (guarded : FleetStep.Guarded r names fleet after)
    (consistent : fleet.Consistent names) : after.Consistent names := by
  obtain ⟨event, name, step, keeps⟩ := guarded
  cases event with
  | user =>
    cases step with
    | edit mem spec distinct => exact edit_consistent consistent spec
  | reconcile => exact reconcile_consistent consistent (keeps rfl) step

theorem Consistent.inSync (consistent : fleet.Consistent names) : fleet.InSync names := by
  intro all_applied
  ext key
  rw [Finset.mem_image]
  constructor
  · intro programmed
    obtain ⟨name, in_names, cached⟩ := consistent.cached key programmed
    obtain ⟨own, -⟩ := consistent.current name in_names (all_applied name in_names)
    exact ⟨name, in_names, Option.some.inj (own.symm.trans cached)⟩
  · rintro ⟨name, in_names, rfl⟩
    exact (consistent.current name in_names (all_applied name in_names)).2

end Fleet

/-- In runs in which no reconciliation removes a key that an applied spec of another peer carries,
the device and the specs agree once all specs are applied.  A reconciliation that removes such a key
and leaves all specs applied breaks the agreement. -/
theorem key_handover_safe (r : MeshPeerReconciler) (names : Finset NamespacedName) (start : Fleet)
    (fresh : start.Fresh names) (fleet : Fleet) :
    (ReflTransGen (FleetStep.Guarded r names) start fleet → fleet.InSync names) ∧
    (ReflTransGen (fun before after => ∃ event name, FleetStep r names event name before after)
        start fleet → ∀ name after, FleetStep r names .reconcile name fleet after →
      ¬ fleet.KeepsKeys names name → (∀ other ∈ names, after.applied other = true) →
      ¬ after.InSync names) := by
  constructor
  · intro reached
    have consistent : fleet.Consistent names := by
      induction reached with
      | refl => exact fresh.consistent
      | tail _ step ih => exact Fleet.guarded_consistent step ih
    exact consistent.inSync
  · intro reached name after step takes all_applied in_sync
    have stored : fleet.Stored names := by
      clear step takes
      induction reached with
      | refl => exact fresh.toStored
      | tail _ step ih =>
        obtain ⟨event, name, taken⟩ := step
        exact Fleet.step_stored taken ih
    simp only [Fleet.KeepsKeys, not_forall, not_not] at takes
    obtain ⟨present, old, cached, rotated, other, in_names, applied, rfl⟩ := takes
    obtain ⟨-, key_eq, -, ⟨missing, -⟩ | ⟨-, -, -, device⟩⟩ := Fleet.reconcile_effect stored step
    · exact missing present
    · have needed : fleet.key other ∈ after.agent.dataPlane.programmed := by
        rw [in_sync all_applied, key_eq]
        exact Finset.mem_image_of_mem _ in_names
      rw [device, Finset.mem_insert] at needed
      rcases needed with same | survives
      · exact rotated same
      · exact rotated ((Fleet.mem_withoutRotated.mp survives).2 cached)

/-- The name of the second object. -/
def westName : NamespacedName := ([], "west")

/-- The names of both objects. -/
def twoNames : Finset NamespacedName := {eastName, westName}

/-- The spec with a given key. -/
def keySpec (publicKey : Str) : MeshPeerSpec := (eastPeer publicKey).spec

/-- Two peers with a finalizer, and a process that has just started. -/
def twoPeers : Fleet where
  objects name := .create [meshPeerFinalizer] {
    eastPeer (if name = eastName then "key-1" else "key-2") with
    namespace_ := name.1, name := name.2 }
  agent := ⟨⟨∅, ∅⟩, ∅⟩
  applied _ := false

theorem twoPeers_fresh : twoPeers.Fresh twoNames where
  named _ _ := rfl
  live _ _ := rfl
  distinct := by
    unfold Fleet.DistinctKeys
    decide +kernel
  agent := rfl
  applied _ := rfl

/-- The fleet after a reconcile without failures. -/
def Fleet.reconciled (fleet : Fleet) (name : NamespacedName) : Fleet :=
  match agentA.reconcile deviceEnvironment ⟨none, none⟩ name (some (fleet.objects name))
      fleet.agent with
  | .ok ⟨state, some stored, _, none⟩ =>
    ⟨Function.update fleet.objects name stored, state,
      if meshPeerFinalizer ∈ (fleet.objects name).finalizers then
        Function.update fleet.applied name true
      else fleet.applied⟩
  | _ => fleet

section Runs

variable {fleet : Fleet} {name : NamespacedName}

theorem reaches_fleet_reconciled (fleet : Fleet) (mem : name ∈ twoNames) :
    fleet.reconciled name = fleet ∨
      FleetStep agentA twoNames .reconcile name fleet (fleet.reconciled name) := by
  rw [Fleet.reconciled]
  split
  case h_1 state stored requeue returned =>
    exact Or.inr (.reconcile mem deviceEnvironment_lawful _ returned rfl rfl)
  case h_2 => exact Or.inl rfl

theorem keepsKeys_of_check
    (check : ((fleet.agent.keyIndex.lookup name).all fun old => decide (old = fleet.key name) ||
      decide (∀ other ∈ twoNames, fleet.applied other = true → fleet.key other ≠ old)) = true) :
    fleet.KeepsKeys twoNames name := by
  intro _ old cached rotated
  rw [cached, Option.all_some, decide_eq_false rotated, Bool.false_or, decide_eq_true_eq] at check
  exact check

theorem guarded_fleet_reconciled (mem : name ∈ twoNames) (keeps : fleet.KeepsKeys twoNames name) :
    ReflTransGen (FleetStep.Guarded agentA twoNames) fleet (fleet.reconciled name) := by
  rcases reaches_fleet_reconciled fleet mem with same | step
  · rw [same]
  · exact .single ⟨.reconcile, name, step, fun _ => keeps⟩

theorem guarded_fleet_edit (mem : name ∈ twoNames) {spec : MeshPeerSpec}
    (distinct : (fleet.edit name spec).DistinctKeys twoNames) :
    FleetStep.Guarded agentA twoNames fleet (fleet.edit name spec) :=
  ⟨.user, name, .edit mem spec distinct, by simp⟩

end Runs

/-- Both peers are programmed, and the first one gets a new key. -/
def rotatedEast : Fleet :=
  ((twoPeers.reconciled eastName).reconciled westName).edit eastName (keySpec "key-3")

theorem guarded_rotatedEast :
    ReflTransGen (FleetStep.Guarded agentA twoNames) twoPeers rotatedEast := by
  have east_applied : ReflTransGen (FleetStep.Guarded agentA twoNames) twoPeers
      (twoPeers.reconciled eastName) :=
    guarded_fleet_reconciled (by decide) (keepsKeys_of_check (by decide +kernel))
  have west_applied := east_applied.trans
    (guarded_fleet_reconciled (show westName ∈ twoNames by decide)
      (keepsKeys_of_check (by decide +kernel)))
  refine west_applied.tail (guarded_fleet_edit (by decide) ?_)
  unfold Fleet.DistinctKeys
  decide +kernel

/-- The key moves after the peer that gave it up has been reconciled. -/
theorem key_handover_safe_in_order :
    (∀ name ∈ twoNames, (((rotatedEast.reconciled eastName).edit westName
      (keySpec "key-1")).reconciled westName).applied name = true) ∧
    (((rotatedEast.reconciled eastName).edit westName (keySpec "key-1")).reconciled
      westName).InSync twoNames := by
  refine ⟨by decide +kernel, ?_⟩
  have east_applied := guarded_rotatedEast.trans
    (guarded_fleet_reconciled (show eastName ∈ twoNames by decide)
      (keepsKeys_of_check (by decide +kernel)))
  have moved := east_applied.tail (guarded_fleet_edit (show westName ∈ twoNames by decide)
    (show ((rotatedEast.reconciled eastName).edit westName
      (keySpec "key-1")).DistinctKeys twoNames by
      unfold Fleet.DistinctKeys
      decide +kernel))
  exact (key_handover_safe agentA twoNames twoPeers twoPeers_fresh _).1
    (moved.trans (guarded_fleet_reconciled (by decide) (keepsKeys_of_check (by decide +kernel))))

/-- The fleet after the other order of the two calls. -/
def droppedTunnel : Fleet :=
  ((rotatedEast.edit westName (keySpec "key-1")).reconciled westName).reconciled eastName

/-- The peer that took the key over is reconciled first; then the old owner removes the key. -/
theorem moved_key_dropped :
    ReflTransGen (fun before after => ∃ event name,
      FleetStep agentA twoNames event name before after) twoPeers droppedTunnel ∧
    (∀ name ∈ twoNames, droppedTunnel.applied name = true) ∧
    ¬ droppedTunnel.InSync twoNames := by
  have all_applied : ∀ name ∈ twoNames, droppedTunnel.applied name = true := by decide +kernel
  refine ⟨?_, all_applied, fun in_sync => ?_⟩
  · have moved := guarded_rotatedEast.tail (guarded_fleet_edit (show westName ∈ twoNames by decide)
      (show (rotatedEast.edit westName (keySpec "key-1")).DistinctKeys twoNames by
        unfold Fleet.DistinctKeys
        decide +kernel))
    have taken := moved.trans (guarded_fleet_reconciled (show westName ∈ twoNames by decide)
      (keepsKeys_of_check (by decide +kernel)))
    refine ReflTransGen.trans (ReflTransGen.mono (fun _ _ guarded => ?_) _ _ taken) ?_
    · obtain ⟨event, name, step, -⟩ := guarded
      exact ⟨event, name, step⟩
    · rcases reaches_fleet_reconciled
        ((rotatedEast.edit westName (keySpec "key-1")).reconciled westName)
        (show eastName ∈ twoNames by decide) with same | step
      · rw [droppedTunnel, same]
      · exact .single ⟨_, _, step⟩
  · exact absurd (in_sync all_applied) (by decide +kernel)

end DatawerxMesh.Controllers
