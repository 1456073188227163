import DatawerxMesh.Controllers.MeshPeer
import DatawerxMesh.Controllers.RemapPool

/-!
# The routes of a peer

What the peer reconciler passes to `ConfigurePeer`, beside what the remap reconciler plans for the
same peer without its dangerous CIDRs.
-/

namespace DatawerxMesh.Controllers

open Go Addressing Program DatawerxMesh.Topology NatPlane List MeshPeerReconciler

namespace MeshPeerReconciler

variable (r : MeshPeerReconciler) {peer : MeshPeer} {allowedIPs : List Str}

/-- The remap reconciler of the same agent. -/
def remap : RemapReconciler where
  clusterID := r.clusterID
  localCIDRs := r.localCIDRs
  remapPool := r.remapPool

/-- The CIDRs of a peer that are routed as they are. -/
def routable (peer : MeshPeer) : List Str := (partition peer.spec.allCIDRs r.localCIDRs).1

/-- The CIDRs of a peer that are withheld. -/
def conflicts (peer : MeshPeer) : List Str := (partition peer.spec.allCIDRs r.localCIDRs).2

/-- The virtual ranges among the CIDRs passed to `ConfigurePeer`, which follow the routable ones. -/
def virtualRoutes (peer : MeshPeer) (allowedIPs : List Str) : List Str :=
  allowedIPs.drop (r.routable peer).length

variable {r}

theorem planPeer_routable (keyed : peer.spec.publicKey ≠ []) :
    (planPeer peer.spec r.localCIDRs).routableCIDRs = r.routable peer := by
  rw [planPeer, if_neg keyed]
  rfl

theorem planPeer_conflicts (keyed : peer.spec.publicKey ≠ []) :
    (planPeer peer.spec r.localCIDRs).conflictingCIDRs = r.conflicts peer := by
  rw [planPeer, if_neg keyed]
  rfl

theorem programs_without_pool (off : r.remapPool = []) :
    r.Programs peer allowedIPs ↔ peer.spec.publicKey ≠ [] ∧ allowedIPs = r.routable peer := by
  rw [programs_iff]
  refine and_congr_right fun keyed => ?_
  rw [routePlan, if_neg (by simp [off]), planPeer_routable keyed]
  simp [eq_comm]

theorem programs_with_pool (on : r.remapPool ≠ []) :
    r.Programs peer allowedIPs ↔ peer.spec.publicKey ≠ [] ∧ ∃ plan,
      planRemap r.remapPool r.clusterID r.localCIDRs peer.spec.clusterID (r.conflicts peer) =
        .ok plan ∧ allowedIPs = r.routable peer ++ plan.routeVirtual := by
  rw [programs_iff]
  refine and_congr_right fun keyed => ?_
  rw [routePlan, planPeer_routable keyed, planPeer_conflicts keyed, Plan.hasConflicts,
    planPeer_conflicts keyed]
  cases conflicts_eq : r.conflicts peer with
  | nil =>
    have empty : planRemap r.remapPool r.clusterID r.localCIDRs peer.spec.clusterID [] =
        .ok ⟨[], []⟩ := rfl
    simp [empty, eq_comm]
  | cons cidr rest =>
    rw [if_pos (by simp [on])]
    constructor
    · rintro ⟨phase, message, planned⟩
      obtain ⟨plan, plan_ok, returned⟩ := Outcome.bind_eq_ok.mp planned
      obtain ⟨rfl, -⟩ := Prod.mk.inj (Outcome.ok.inj returned)
      exact ⟨plan, plan_ok, rfl⟩
    · rintro ⟨plan, plan_ok, rfl⟩
      exact ⟨_, _, Outcome.bind_eq_ok.mpr ⟨plan, plan_ok, rfl⟩⟩

theorem mem_allowedIPs (programmed : r.Programs peer allowedIPs) (text : Str) :
    text ∈ allowedIPs ↔ text ∈ r.routable peer ∨
      ∃ cidr ∈ r.conflicts peer, virtualCIDR r.remapPool peer.spec.clusterID cidr = .ok text := by
  by_cases off : r.remapPool = []
  · obtain ⟨-, rfl⟩ := (programs_without_pool off).mp programmed
    have refused : ∀ cidr, virtualCIDR r.remapPool peer.spec.clusterID cidr ≠ .ok text := by
      intro cidr
      rw [off]
      simp [virtualCIDR, show parseNet [] = none from rfl]
    simp [refused]
  · obtain ⟨-, plan, planned, rfl⟩ := (programs_with_pool off).mp programmed
    rw [mem_append, mem_routeVirtual planned]
    refine or_congr_right (exists_congr fun cidr => ?_)
    rw [mem_placements_peer, and_assoc]
    refine and_congr_right fun _ => and_iff_right_of_imp fun allocated => ?_
    exact isSome_of_virtualCIDR_ok allocated

theorem remapConflicts_of_safe (safe : ∀ cidr ∈ peer.spec.allCIDRs, dangerousText cidr = false) :
    r.remap.remapConflicts peer = r.conflicts peer := by
  rw [RemapReconciler.remapConflicts, excludeDangerous_eq]
  refine filter_eq_self.mpr fun cidr mem => ?_
  rw [partition_snd, mem_filter] at mem
  rw [safe cidr mem.1, Bool.not_false]

/-- Dangerous CIDRs are withheld, so with a pool they are routed under virtual ranges. -/
theorem dangerous_routed {plan : RemapPlan}
    (planned : planRemap r.remapPool r.clusterID r.localCIDRs peer.spec.clusterID
      (r.conflicts peer) = .ok plan) {cidr : Str} (in_spec : cidr ∈ peer.spec.allCIDRs)
    (dangerous : dangerousText cidr = true) :
    ∃ virtual ∈ plan.routeVirtual,
      virtualCIDR r.remapPool peer.spec.clusterID cidr = .ok virtual := by
  rw [dangerousText, Option.any_eq_true] at dangerous
  obtain ⟨remote, parsed, dangerous⟩ := dangerous
  have conflict : cidr ∈ r.conflicts peer := by
    rw [conflicts, partition_snd, mem_filter]
    exact ⟨in_spec, by simp [routableText, parsed, dangerous]⟩
  have placed : .peer cidr ∈ placements (parseCIDRList r.localCIDRs) (r.conflicts peer) :=
    mem_placements_peer.mpr ⟨conflict, parsed ▸ rfl⟩
  obtain ⟨⟨all, -⟩, -⟩ := (planRemap_eq_ok r.localCIDRs (r.conflicts peer) plan).mp planned
  obtain ⟨virtual, allocated⟩ := all _ placed
  have derived := Placement.allocate_eq_ok.mp allocated
  exact ⟨virtual, (mem_routeVirtual planned virtual).mpr ⟨cidr, placed, derived⟩, derived⟩

end MeshPeerReconciler

theorem RemapReconciler.routeVirtual_of_no_pool {r : RemapReconciler} (off : r.remapPool = [])
    {peer : MeshPeer} (placeable : Placeable r.remapPool r.clusterID peer.spec.clusterID
      (r.peerPlacements peer)) {plan : RemapPlan} (planned : r.peerPlan peer = .ok plan) :
    plan.routeVirtual = [] := by
  refine eq_nil_iff_forall_not_mem.mpr fun virtual routed => ?_
  obtain ⟨cidr, placed, -⟩ := ((peerPlan_eq_ok planned).2.1 virtual).mp routed
  obtain ⟨poolBlock, pool_eq⟩ := dotted_of_placeable placeable placed
  rw [off] at pool_eq
  cases pool_eq

/-- The virtual ranges passed to `ConfigurePeer` are those planned by the remap reconciler, and none
comes from a dangerous CIDR. -/
def VirtualRoutesAgree (r : MeshPeerReconciler) (peer : MeshPeer) (allowedIPs : List Str) : Prop :=
  (∃ plan, r.remap.peerPlan peer = .ok plan ∧
    r.virtualRoutes peer allowedIPs = plan.routeVirtual) ∧
  ∀ cidr ∈ peer.spec.allCIDRs, dangerousText cidr = true →
    ∀ virtual ∈ r.virtualRoutes peer allowedIPs,
      virtualCIDR r.remapPool peer.spec.clusterID cidr ≠ .ok virtual

/-- The two reconcilers agree on the virtual ranges of a peer exactly when remapping is off or the
peer advertises nothing dangerous. -/
theorem virtual_routes_agree_iff (r : MeshPeerReconciler) (peers : List MeshPeer) (peer : MeshPeer)
    (mem : peer ∈ peers) (allowedIPs : List Str) (programmed : r.Programs peer allowedIPs)
    (entries : List RemapEntry) (built : r.remap.buildEntries peers = .ok entries) :
    VirtualRoutesAgree r peer allowedIPs ↔
      r.remapPool = [] ∨ ∀ cidr ∈ peer.spec.allCIDRs, dangerousText cidr = false := by
  obtain ⟨placeable, -⟩ := (RemapReconciler.buildEntries_ok_iff peers).mp ⟨entries, built⟩
  obtain ⟨plan, planned⟩ := RemapReconciler.exists_peerPlan_iff.mpr (placeable peer mem)
  by_cases off : r.remapPool = []
  · obtain ⟨keyed, rfl⟩ := (programs_without_pool off).mp programmed
    have routes_nil : r.virtualRoutes peer (r.routable peer) = [] := by
      rw [MeshPeerReconciler.virtualRoutes, drop_length]
    have nothing_planned : plan.routeVirtual = [] :=
      RemapReconciler.routeVirtual_of_no_pool off (placeable peer mem) planned
    refine iff_of_true ⟨⟨plan, planned, by rw [routes_nil, nothing_planned]⟩, ?_⟩ (Or.inl off)
    intro cidr _ _ virtual routed
    rw [routes_nil] at routed
    cases routed
  · obtain ⟨keyed, full, full_ok, rfl⟩ := (programs_with_pool off).mp programmed
    have routes_eq : r.virtualRoutes peer (r.routable peer ++ full.routeVirtual) =
        full.routeVirtual := by
      rw [MeshPeerReconciler.virtualRoutes, drop_left]
    constructor
    · rintro ⟨-, underived⟩
      refine Or.inr fun cidr in_spec => ?_
      by_contra dangerous
      rw [Bool.not_eq_false] at dangerous
      obtain ⟨virtual, routed, derived⟩ :=
        dangerous_routed full_ok in_spec dangerous
      rw [← routes_eq] at routed
      exact underived cidr in_spec dangerous virtual routed derived
    · rintro (pool_off | safe)
      · exact absurd pool_off off
      · refine ⟨⟨full, ?_, routes_eq⟩, fun cidr in_spec dangerous => ?_⟩
        · rw [RemapReconciler.peerPlan, if_neg keyed, remapConflicts_of_safe safe]
          exact full_ok
        · rw [safe cidr in_spec] at dangerous
          cases dangerous

/-- The agent of a cluster that uses 10.244.0.0/16 and the default pool. -/
def agentA : MeshPeerReconciler where
  localCIDRs := ["10.244.0.0/16"]
  clusterID := "cluster-a"
  remapPool := defaultRemapPool

theorem agentA_programs_overlap :
    agentA.Programs (peerOf "cluster-b" ["10.244.0.0/16"]) ["172.19.0.0/16"] := by
  rw [programs_with_pool (by decide)]
  exact ⟨by decide, ⟨["172.19.0.0/16"], [⟨"10.244.0.0/16", "172.18.0.0/16"⟩]⟩,
    by decide +kernel, by decide +kernel⟩

theorem virtual_routes_agree_iff_agentA :
    VirtualRoutesAgree agentA (peerOf "cluster-b" ["10.244.0.0/16"])
        ["172.19.0.0/16"] ↔
      agentA.remapPool = [] ∨
        ∀ cidr ∈ (peerOf "cluster-b" ["10.244.0.0/16"]).spec.allCIDRs,
          dangerousText cidr = false :=
  virtual_routes_agree_iff agentA [peerOf "cluster-b" ["10.244.0.0/16"]] _
    mem_cons_self _ agentA_programs_overlap
    [⟨"10.244.0.0/16", "172.18.0.0/16"⟩] (by decide +kernel)

/-- A peer that advertises the link-local range is routed under a virtual range. -/
theorem link_local_routed_virtually :
    agentA.Programs (peerOf "cluster-b" ["169.254.0.0/16"]) ["172.21.0.0/16"] ∧
    agentA.remap.buildEntries [peerOf "cluster-b" ["169.254.0.0/16"]] = .ok [] ∧
    ¬ VirtualRoutesAgree agentA (peerOf "cluster-b" ["169.254.0.0/16"])
      ["172.21.0.0/16"] := by
  refine ⟨?_, by decide +kernel, fun agree => ?_⟩
  · rw [programs_with_pool (by decide)]
    exact ⟨by decide, ⟨["172.21.0.0/16"], []⟩, by decide +kernel, by decide +kernel⟩
  · exact agree.2 "169.254.0.0/16" mem_cons_self (by decide +kernel)
      "172.21.0.0/16" (by decide +kernel) (by decide +kernel)

end DatawerxMesh.Controllers
