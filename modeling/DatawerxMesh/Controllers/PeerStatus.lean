import DatawerxMesh.Controllers.PeerRoutes

/-!
# The reported phase of a peer

What the phase of a peer says about its routes.  With a pool it is `Connected` as soon as the remap
can be planned.
-/

namespace DatawerxMesh.Controllers

open Go Addressing Program DatawerxMesh.Topology

section Report

variable {σ : Type} (env : Environment σ)

@[simp] theorem patchStatus_phase (peer : MeshPeer) (phase : MeshPeerPhase) (handshake : Int)
    (message : Str) : (patchStatus env peer phase handshake message).1.status.phase = phase := by
  unfold patchStatus
  split
  · rename_i unchanged
    exact unchanged.1
  · rfl

@[simp] theorem fail_phase (state : AgentState σ) (peer : MeshPeer) (message : Str) :
    (fail env state peer message).peer.status.phase = .error :=
  patchStatus_phase env peer .error _ message

theorem program_report (state : AgentState (σ × List (List Str))) (peer : MeshPeer) (plan : Plan)
    (routeCIDRs : List Str) (phase : MeshPeerPhase) (message : Str) :
    let result := program env.logged state peer plan routeCIDRs phase message
    result.peer.status.phase = .error ∨
      result.peer.status.phase = phase ∧ routeCIDRs ∈ result.state.dataPlane.2 := by
  intro result
  rcases rotated_eq : removeRotated env.logged state peer plan.publicKey with ⟨rotated, error⟩
  cases error with
  | some error =>
    left
    simp [result, program, rotated_eq]
  | none =>
    rcases configured_eq : env.logged.dataPlane.configurePeer plan.publicKey plan.endpoint
      routeCIDRs rotated with ⟨configured, refused⟩
    cases refused with
    | some error =>
      left
      simp [result, program, rotated_eq, configured_eq]
    | none =>
      right
      have called : configured.2 = rotated.2 ++ [routeCIDRs] :=
        (congrArg (fun outcome => outcome.1.2) configured_eq).symm
      simp [result, program, rotated_eq, configured_eq, called]

end Report

namespace MeshPeerReconciler

/-- The CIDR can be routed: it parses and is not dangerous. -/
def Sound (cidr : Str) : Prop := ∃ net, parseNet cidr = some net ∧ isDangerousCIDR net = false

theorem Sound.dangerousText_eq {cidr : Str} (sound : Sound cidr) : dangerousText cidr = false := by
  obtain ⟨net, parsed, safe⟩ := sound
  rw [dangerousText, parsed, Option.any_some, safe]

theorem Sound.isSome {cidr : Str} (sound : Sound cidr) : (parseNet cidr).isSome = true := by
  obtain ⟨net, parsed, -⟩ := sound
  rw [parsed, Option.isSome_some]

/-- The CIDR is served by the routes: itself, or by its virtual range if it is sound. -/
def Served (r : MeshPeerReconciler) (peer : MeshPeer) (allowedIPs : List Str) (cidr : Str) :
    Prop :=
  cidr ∈ allowedIPs ∨ Sound cidr ∧
    ∃ virtual ∈ allowedIPs, virtualCIDR r.remapPool peer.spec.clusterID cidr = .ok virtual

/-- In every run the reconcile returns: phase `Connected` means that every CIDR of the spec is
served by the routes passed to `ConfigurePeer`, and an unsound CIDR gives phase `Error`.  A panic
reports no phase and is not honest. -/
def HonestStatus (r : MeshPeerReconciler) (peer : MeshPeer) : Prop :=
  ∀ (σ : Type) (env : Environment σ) (state : AgentState (σ × List (List Str))),
    state.dataPlane.2 = [] → ∃ result, r.reconcileApply env.logged state peer = .ok result ∧
      (result.peer.status.phase = .connected → ∃ allowedIPs ∈ result.state.dataPlane.2,
        ∀ cidr ∈ peer.spec.allCIDRs, r.Served peer allowedIPs cidr) ∧
      ((∃ cidr ∈ peer.spec.allCIDRs, ¬ Sound cidr) → result.peer.status.phase = .error)

variable {r : MeshPeerReconciler} {peer : MeshPeer}

theorem reconcileApply_report {σ : Type} {env : Environment σ}
    {state : AgentState (σ × List (List Str))} {result : ApplyResult (σ × List (List Str))}
    (applied : r.reconcileApply env.logged state peer = .ok result) :
    result.peer.status.phase = .error ∨ ∃ routeCIDRs phase message,
      peer.spec.publicKey ≠ [] ∧
      r.routePlan peer.spec.clusterID (planPeer peer.spec r.localCIDRs) =
        .ok (routeCIDRs, phase, message) ∧
      result.peer.status.phase = phase ∧ routeCIDRs ∈ result.state.dataPlane.2 := by
  obtain ⟨_, rfl⟩ | ⟨keyed, routeCIDRs, phase, message, planned, rfl⟩ :=
    reconcileApply_cases applied
  · exact .inl (fail_phase _ _ _ _)
  · exact (program_report env state peer _ routeCIDRs phase message).imp_right fun report =>
      ⟨routeCIDRs, phase, message, keyed, planned, report⟩

theorem mem_routable_or_conflicts {cidr : Str} (mem : cidr ∈ peer.spec.allCIDRs) :
    cidr ∈ r.routable peer ∨ cidr ∈ r.conflicts peer := by
  rw [routable, conflicts, partition_fst, partition_snd, List.mem_filter, List.mem_filter]
  cases routableText (parseCIDRList r.localCIDRs) cidr <;> simp [mem]

theorem conflict_of_unsound {cidr : Str} (mem : cidr ∈ peer.spec.allCIDRs)
    (unsound : ¬ Sound cidr) : cidr ∈ r.conflicts peer := by
  refine (mem_routable_or_conflicts mem).resolve_left fun routable => unsound ?_
  obtain ⟨-, net, parsed, safe, -⟩ := mem_routable_iff.mp routable
  exact ⟨net, parsed, safe⟩

theorem planPeer_phase (keyed : peer.spec.publicKey ≠ []) :
    (planPeer peer.spec r.localCIDRs).phase =
      if r.conflicts peer = [] then .connected else .error := by
  rw [planPeer, if_neg keyed, conflicts]
  dsimp only
  split <;> split <;> simp_all

/-- The withheld CIDRs of the peer can all be placed in the pool. -/
def Remappable (r : MeshPeerReconciler) (peer : MeshPeer) : Prop :=
  Placeable r.remapPool r.clusterID peer.spec.clusterID
    (placements (parseCIDRList r.localCIDRs) (r.conflicts peer))

/-- The remap of the peer comes to an IPv4-mapped CIDR, on which `VirtualCIDR` panics. -/
def RemapPanics (r : MeshPeerReconciler) (peer : MeshPeer) : Prop :=
  ReachesMapped r.remapPool r.clusterID r.localCIDRs peer.spec.clusterID (r.conflicts peer)

theorem routePlan_eq_panic (keyed : peer.spec.publicKey ≠ []) :
    r.routePlan peer.spec.clusterID (planPeer peer.spec r.localCIDRs) = .panic ↔
      r.RemapPanics peer := by
  rw [routePlan, Plan.hasConflicts, planPeer_conflicts keyed, RemapPanics]
  split
  · rw [Outcome.bind_eq_panic, planRemap_eq_panic]
    simp
  · rename_i off
    refine ⟨fun panics => (by cases panics), ?_⟩
    rintro ⟨poolBlock, before, cidr, after, pool_eq, split, -, -⟩
    have empty : r.remapPool = [] := by simpa [split] using off
    rw [empty] at pool_eq
    cases pool_eq

theorem reconcileApply_eq_panic {σ : Type} {env : Environment σ} {state : AgentState σ} :
    r.reconcileApply env state peer = .panic ↔ peer.spec.publicKey ≠ [] ∧ r.RemapPanics peer := by
  have programmable := planPeer_programmable peer.spec r.localCIDRs
  rw [reconcileApply]
  by_cases keyed : peer.spec.publicKey = []
  · simp [keyed, Bool.eq_false_iff.mpr fun set => programmable.mp set keyed]
  · rw [← routePlan_eq_panic keyed, and_iff_right keyed]
    simp only [programmable.mpr keyed, Bool.not_true, Bool.false_eq_true, if_false]
    cases r.routePlan peer.spec.clusterID (planPeer peer.spec r.localCIDRs) <;> simp

theorem routePlan_eq_ok (keyed : peer.spec.publicKey ≠ []) {routeCIDRs : List Str}
    {phase : MeshPeerPhase} {message : Str}
    (planned : r.routePlan peer.spec.clusterID (planPeer peer.spec r.localCIDRs) =
      .ok (routeCIDRs, phase, message)) :
    (r.conflicts peer = [] ∧ phase = .connected ∨
      r.conflicts peer ≠ [] ∧ r.remapPool = [] ∧ phase = .error ∨
      r.conflicts peer ≠ [] ∧ r.remapPool ≠ [] ∧ phase = .connected ∧ r.Remappable peer) := by
  rw [routePlan, Plan.hasConflicts, planPeer_conflicts keyed] at planned
  by_cases quiet : r.conflicts peer = []
  · rw [if_neg (by simp [quiet])] at planned
    obtain ⟨-, returned⟩ := Prod.mk.inj (Outcome.ok.inj planned)
    left
    refine ⟨quiet, ?_⟩
    rw [← (Prod.mk.inj returned).1, planPeer_phase keyed, if_pos quiet]
  · right
    by_cases off : r.remapPool = []
    · rw [if_neg (by simp [off])] at planned
      obtain ⟨-, returned⟩ := Prod.mk.inj (Outcome.ok.inj planned)
      left
      refine ⟨quiet, off, ?_⟩
      rw [← (Prod.mk.inj returned).1, planPeer_phase keyed, if_neg quiet]
    · rw [if_pos (by simp [quiet, off])] at planned
      obtain ⟨plan, placed, returned⟩ := Outcome.bind_eq_ok.mp planned
      obtain ⟨-, rest⟩ := Prod.mk.inj (Outcome.ok.inj returned)
      exact .inr ⟨quiet, off, (Prod.mk.inj rest).1.symm,
        ((planRemap_eq_ok r.localCIDRs (r.conflicts peer) plan).mp placed).1⟩

theorem served_of_sound {allowedIPs : List Str} (programmed : r.Programs peer allowedIPs)
    (placed : r.conflicts peer = [] ∨ r.Remappable peer)
    (sound : ∀ cidr ∈ peer.spec.allCIDRs, Sound cidr) :
    ∀ cidr ∈ peer.spec.allCIDRs, r.Served peer allowedIPs cidr := by
  intro cidr mem
  rcases mem_routable_or_conflicts mem with routable | conflict
  · exact .inl ((mem_allowedIPs programmed cidr).mpr (.inl routable))
  · rcases placed with quiet | ⟨all, -⟩
    · rw [quiet] at conflict
      cases conflict
    · obtain ⟨net, parsed, -⟩ := sound cidr mem
      obtain ⟨virtual, allocated⟩ :=
        all (.peer cidr) (mem_placements_peer.mpr ⟨conflict, parsed ▸ rfl⟩)
      have derived := Placement.allocate_eq_ok.mp allocated
      exact .inr ⟨sound cidr mem, virtual,
        (mem_allowedIPs programmed virtual).mpr (.inr ⟨cidr, conflict, derived⟩), derived⟩

theorem exists_connected (keyed : peer.spec.publicKey ≠ []) (on : r.remapPool ≠ [])
    (placed : r.Remappable peer) :
    ∃ result, r.reconcileApply quietEnvironment.logged ⟨((), []), ∅⟩ peer = .ok result ∧
      result.peer.status.phase = .connected := by
  obtain ⟨routeCIDRs, phase, message, planned⟩ : ∃ routeCIDRs phase message,
      r.routePlan peer.spec.clusterID (planPeer peer.spec r.localCIDRs) =
        .ok (routeCIDRs, phase, message) := by
    have programs := (programs_with_pool on).mpr
      ⟨keyed, _, (planRemap_eq_ok r.localCIDRs (r.conflicts peer) _).mpr ⟨placed, rfl⟩, rfl⟩
    exact ⟨_, (programs_iff r peer _).mp programs |>.2⟩
  have connected : phase = .connected := by
    rcases routePlan_eq_ok keyed planned with ⟨-, connected⟩ | ⟨-, off, -⟩ | ⟨-, -, connected, -⟩
    · exact connected
    · exact absurd off on
    · exact connected
  subst connected
  refine ⟨program quietEnvironment.logged ⟨((), []), ∅⟩ peer (planPeer peer.spec r.localCIDRs)
    routeCIDRs .connected message, ?_, ?_⟩
  · rw [reconcileApply]
    simp only [(planPeer_programmable peer.spec r.localCIDRs).mpr keyed, planned]
    rfl
  · simp only [program, removeRotated, AList.lookup_empty]
    exact patchStatus_phase _ _ _ _ _

theorem exists_reconcileApply_eq_ok {σ : Type} (env : Environment σ) (state : AgentState σ)
    (returns : ¬ (peer.spec.publicKey ≠ [] ∧ r.RemapPanics peer)) :
    ∃ result, r.reconcileApply env state peer = .ok result := by
  cases applied : r.reconcileApply env state peer with
  | ok result => exact ⟨result, rfl⟩
  | err error => exact error.elim
  | panic => exact absurd (reconcileApply_eq_panic.mp applied) returns

theorem honest_of_sound {σ : Type} {env : Environment σ}
    {state : AgentState (σ × List (List Str))} {result : ApplyResult (σ × List (List Str))}
    (applied : r.reconcileApply env.logged state peer = .ok result)
    (condition : r.remapPool = [] ∨ peer.spec.publicKey = [] ∨ ¬ r.Remappable peer ∨
      ∀ cidr ∈ peer.spec.allCIDRs, Sound cidr) :
    (result.peer.status.phase = .connected → ∃ allowedIPs ∈ result.state.dataPlane.2,
      ∀ cidr ∈ peer.spec.allCIDRs, r.Served peer allowedIPs cidr) ∧
    ((∃ cidr ∈ peer.spec.allCIDRs, ¬ Sound cidr) → result.peer.status.phase = .error) := by
  by_cases error : result.peer.status.phase = .error
  · refine ⟨fun connected => ?_, fun _ => error⟩
    rw [error] at connected
    cases connected
  · obtain ⟨routeCIDRs, phase, message, keyed, planned, reported, called⟩ :=
      (reconcileApply_report applied).resolve_left error
    have programmed := (programs_iff r peer routeCIDRs).mpr ⟨keyed, phase, message, planned⟩
    obtain ⟨placed, sound⟩ : (r.conflicts peer = [] ∨ r.Remappable peer) ∧
        ∀ cidr ∈ peer.spec.allCIDRs, Sound cidr := by
      rcases routePlan_eq_ok keyed planned with ⟨quiet, -⟩ | ⟨-, -, rfl⟩ | ⟨-, on, -, placed⟩
      · refine ⟨.inl quiet, fun cidr mem => ?_⟩
        by_contra unsound
        have conflict : cidr ∈ r.conflicts peer := conflict_of_unsound mem unsound
        rw [quiet] at conflict
        cases conflict
      · exact absurd reported error
      · refine ⟨.inr placed, ?_⟩
        rcases condition with off | unkeyed | unplaced | sound
        · exact absurd off on
        · exact absurd unkeyed keyed
        · exact absurd placed unplaced
        · exact sound
    refine ⟨fun _ => ⟨routeCIDRs, called, served_of_sound programmed placed sound⟩, ?_⟩
    rintro ⟨cidr, mem, unsound⟩
    exact absurd (sound cidr mem) unsound

/-- The status is honest exactly when the peer has no key, or the remap does not panic and there is
no pool, the remap cannot be planned, or all CIDRs of the spec parse and are not dangerous.  The
remap of a peer with a key panics in every run or in none. -/
theorem honest_status_iff (r : MeshPeerReconciler) (peer : MeshPeer) :
    (r.HonestStatus peer ↔
      peer.spec.publicKey = [] ∨ ¬ r.RemapPanics peer ∧
        (r.remapPool = [] ∨ ¬ r.Remappable peer ∨ ∀ cidr ∈ peer.spec.allCIDRs, Sound cidr)) ∧
    ∀ (σ : Type) (env : Environment σ) (state : AgentState σ),
      r.reconcileApply env state peer = .panic ↔ peer.spec.publicKey ≠ [] ∧ r.RemapPanics peer := by
  refine ⟨⟨fun honest => ?_, fun condition σ env state fresh => ?_⟩,
    fun σ env state => reconcileApply_eq_panic⟩
  · obtain ⟨result, applied, -, reported⟩ := honest Unit quietEnvironment ⟨((), []), ∅⟩ rfl
    by_contra dishonest
    push Not at dishonest
    obtain ⟨keyed, unsound⟩ := dishonest
    have returns : ¬ r.RemapPanics peer := fun panics => by
      rw [reconcileApply_eq_panic.mpr ⟨keyed, panics⟩] at applied
      cases applied
    obtain ⟨on, placed, unsound⟩ := unsound returns
    obtain ⟨other, connected_ok, connected⟩ := exists_connected keyed on placed
    obtain rfl := Outcome.ok.inj (applied.symm.trans connected_ok)
    rw [reported unsound] at connected
    cases connected
  · have returns : ¬ (peer.spec.publicKey ≠ [] ∧ r.RemapPanics peer) := by tauto
    obtain ⟨result, applied⟩ := exists_reconcileApply_eq_ok env.logged state returns
    exact ⟨result, applied, honest_of_sound applied (by tauto)⟩

/-- With a pool a malformed CIDR and a link-local range are reported as connected: the first is
routed nowhere, the second under a virtual range.  A loopback range in IPv4-mapped notation is
reported nowhere, since its remap panics. -/
theorem unsound_reported_connected :
    (∃ result, agentA.reconcileApply quietEnvironment.logged ⟨((), []), ∅⟩
        (peerOf "cluster-b" ["10.1.0.0/33"]) = .ok result ∧
      result.peer.status.phase = .connected ∧ result.state.dataPlane.2 = [[]]) ∧
    (∃ result, agentA.reconcileApply quietEnvironment.logged ⟨((), []), ∅⟩
        (peerOf "cluster-b" ["169.254.0.0/16"]) = .ok result ∧
      result.peer.status.phase = .connected ∧
      result.state.dataPlane.2 = [[str "172.21.0.0/16"]]) ∧
    agentA.reconcileApply quietEnvironment.logged ⟨((), []), ∅⟩
      (peerOf "cluster-b" ["::ffff:127.0.0.0/104"]) = .panic ∧
    ¬ agentA.HonestStatus (peerOf "cluster-b" ["10.1.0.0/33"]) ∧
    ¬ agentA.HonestStatus (peerOf "cluster-b" ["169.254.0.0/16"]) ∧
    ¬ agentA.HonestStatus (peerOf "cluster-b" ["::ffff:127.0.0.0/104"]) := by
  refine ⟨⟨_, rfl, by decide +kernel, by decide +kernel⟩,
    ⟨_, rfl, by decide +kernel, by decide +kernel⟩, rfl, fun honest => ?_, fun honest => ?_,
    fun honest => ?_⟩
  · obtain ⟨result, applied, -, reported⟩ := honest Unit quietEnvironment ⟨((), []), ∅⟩ rfl
    have error := reported ⟨"10.1.0.0/33", by decide,
      fun sound => absurd sound.isSome (by decide +kernel)⟩
    cases applied
    revert error
    decide +kernel
  · obtain ⟨result, applied, -, reported⟩ := honest Unit quietEnvironment ⟨((), []), ∅⟩ rfl
    have error := reported ⟨"169.254.0.0/16", by decide,
      fun sound => absurd sound.dangerousText_eq (by decide +kernel)⟩
    cases applied
    revert error
    decide +kernel
  · obtain ⟨result, applied, -⟩ := honest Unit quietEnvironment ⟨((), []), ∅⟩ rfl
    cases applied

end MeshPeerReconciler

end DatawerxMesh.Controllers
