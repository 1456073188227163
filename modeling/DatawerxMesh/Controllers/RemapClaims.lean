import DatawerxMesh.Controllers.Remap

/-!
# What `buildEntries` claims

The claims of a run are those of the ranges that the peers' plans place.  A run succeeds exactly
when every plan exists and no virtual range is claimed by two sources.
-/

namespace DatawerxMesh.Controllers

open Go Addressing Program Ownership DatawerxMesh.Topology NatPlane List

/-- The source under which `buildEntries` claims the virtual range of a placed range. -/
def claimant (clusterID : Str) : Placement → Str
  | .peer _ => routeSource clusterID
  | .local real => realSource real

namespace RemapReconciler

variable (r : RemapReconciler) {peer : MeshPeer} {peers : List MeshPeer} {out : List RemapEntry}

/-- The ranges placed for a peer; a peer without a key contributes none. -/
def peerPlacements (peer : MeshPeer) : List Placement :=
  if peer.spec.publicKey = [] then []
  else placements (parseCIDRList r.localCIDRs) (r.remapConflicts peer)

/-- A placed range of a peer is given a virtual range. -/
def allocates (peer : MeshPeer) (placement : Placement) (virtual : Str) : Prop :=
  placement.allocate r.remapPool r.clusterID peer.spec.clusterID = .ok virtual

/-- The virtual range is claimed for the source. -/
def Claims (peers : List MeshPeer) (virtual source : Str) : Prop :=
  ∃ peer ∈ peers, ∃ placement ∈ r.peerPlacements peer, r.allocates peer placement virtual ∧
    source = claimant peer.spec.clusterID placement

variable {r}

theorem peerPlan_eq_ok {plan : RemapPlan} (planned : r.peerPlan peer = .ok plan) :
    Placeable r.remapPool r.clusterID peer.spec.clusterID (r.peerPlacements peer) ∧
      (∀ virtual, virtual ∈ plan.routeVirtual ↔ ∃ cidr, .peer cidr ∈ r.peerPlacements peer ∧
        r.allocates peer (.peer cidr) virtual) ∧
      ∀ pair, pair ∈ plan.locals ↔ .local pair.real ∈ r.peerPlacements peer ∧
        r.allocates peer (.local pair.real) pair.virtual := by
  unfold peerPlan at planned
  unfold peerPlacements
  split at planned
  · rename_i keyless
    obtain rfl := Outcome.ok.inj planned
    simp [keyless, Placeable]
  · rename_i keyed
    simp only [if_neg keyed, allocates, Placement.allocate_eq_ok]
    exact ⟨((planRemap_eq_ok _ _ plan).mp planned).1, mem_routeVirtual planned, mem_locals planned⟩

theorem exists_peerPlan_iff :
    (∃ plan, r.peerPlan peer = .ok plan) ↔
      Placeable r.remapPool r.clusterID peer.spec.clusterID (r.peerPlacements peer) := by
  constructor
  · rintro ⟨plan, planned⟩
    exact (peerPlan_eq_ok planned).1
  · unfold peerPlan peerPlacements
    intro placeable
    split
    · exact ⟨_, rfl⟩
    · rename_i keyed
      rw [if_neg keyed] at placeable
      exact ⟨_, (planRemap_eq_ok _ _ _).mpr ⟨placeable, rfl⟩⟩

theorem peerRequests_of_plan {plan : RemapPlan} (planned : r.peerPlan peer = .ok plan) :
    r.peerRequests peer = .ok (planRequests peer.spec.clusterID plan) := by
  rw [peerRequests, planned]
  rfl

theorem exists_peerRequests_iff :
    (∃ requests, r.peerRequests peer = .ok requests) ↔ ∃ plan, r.peerPlan peer = .ok plan := by
  constructor
  · rintro ⟨requests, done⟩
    obtain ⟨plan, planned, -⟩ := Outcome.bind_eq_ok.mp done
    exact ⟨plan, Outcome.mapErr_eq_ok.mp planned⟩
  · rintro ⟨plan, planned⟩
    exact ⟨_, peerRequests_of_plan planned⟩

theorem mem_claimsOf_iff (all : ∀ peer ∈ peers, ∃ plan, r.peerPlan peer = .ok plan)
    (virtual source : Str) :
    (virtual, source) ∈ claimsOf (peers.map fun peer => (r.peerRequests peer).getD []) ↔
      r.Claims peers virtual source := by
  rw [claimsOf, mem_map]
  simp only [mem_flatten, mem_map]
  constructor
  · rintro ⟨request, ⟨requests, ⟨peer, in_peers, rfl⟩, in_requests⟩, pair_eq⟩
    obtain ⟨plan, planned⟩ := all peer in_peers
    obtain ⟨-, routes, locals⟩ := peerPlan_eq_ok planned
    rw [peerRequests_of_plan planned] at in_requests
    rcases mem_append.mp in_requests with in_routes | in_locals
    · obtain ⟨routed, routed_mem, rfl⟩ := mem_map.mp in_routes
      obtain ⟨rfl, rfl⟩ := Prod.mk.inj pair_eq
      obtain ⟨cidr, placed, allocated⟩ := (routes _).mp routed_mem
      exact ⟨peer, in_peers, .peer cidr, placed, allocated, rfl⟩
    · obtain ⟨pair, pair_mem, rfl⟩ := mem_map.mp in_locals
      obtain ⟨rfl, rfl⟩ := Prod.mk.inj pair_eq
      obtain ⟨placed, allocated⟩ := (locals _).mp pair_mem
      exact ⟨peer, in_peers, .local pair.real, placed, allocated, rfl⟩
  · rintro ⟨peer, in_peers, placement, placed, allocated, rfl⟩
    obtain ⟨plan, planned⟩ := all peer in_peers
    obtain ⟨-, routes, locals⟩ := peerPlan_eq_ok planned
    have requests_eq : (r.peerRequests peer).getD [] = planRequests peer.spec.clusterID plan := by
      rw [peerRequests_of_plan planned]
      rfl
    cases placement with
    | peer cidr =>
      refine ⟨routeRequest peer.spec.clusterID virtual, ⟨_, ⟨peer, in_peers, requests_eq⟩, ?_⟩, rfl⟩
      exact mem_append_left _ (mem_map_of_mem ((routes virtual).mpr ⟨cidr, placed, allocated⟩))
    | «local» real =>
      refine ⟨realRequest ⟨real, virtual⟩, ⟨_, ⟨peer, in_peers, requests_eq⟩, ?_⟩, rfl⟩
      exact mem_append_right _ (mem_map_of_mem ((locals ⟨real, virtual⟩).mpr ⟨placed, allocated⟩))

theorem mem_addEntry {entry added : RemapEntry} :
    entry ∈ addEntry added out ↔ entry ∈ out ∨ entry = added :=
  Accumulation.mem_add_absent (by simp) entry

theorem mem_applyAll_planRequests {clusterID : Str} {plan : RemapPlan} {entry : RemapEntry} :
    entry ∈ applyAll (planRequests clusterID plan) out ↔
      entry ∈ out ∨ ⟨entry.real, entry.virtual⟩ ∈ plan.locals := by
  have routes : applyAll (plan.routeVirtual.map (routeRequest clusterID)) out = out := by
    induction plan.routeVirtual with
    | nil => rfl
    | cons virtual rest ih => exact ih
  rw [planRequests, applyAll_append, routes]
  clear routes
  generalize plan.locals = pairs
  induction pairs generalizing out with
  | nil => simp [applyAll]
  | cons pair pairs ih =>
    have step : applyAll ((pair :: pairs).map realRequest) out =
        applyAll (pairs.map realRequest) (addEntry ⟨pair.real, pair.virtual⟩ out) := rfl
    rw [step]
    refine ih.trans ?_
    rw [mem_addEntry, mem_cons, or_assoc]
    refine or_congr_right (or_congr_left ?_)
    cases entry
    cases pair
    simp

theorem mem_applyAll_peers (all : ∀ peer ∈ peers, ∃ plan, r.peerPlan peer = .ok plan)
    {entry : RemapEntry} :
    entry ∈ applyAll (peers.map fun peer => (r.peerRequests peer).getD []).flatten out ↔
      entry ∈ out ∨ ∃ peer ∈ peers, .local entry.real ∈ r.peerPlacements peer ∧
        r.allocates peer (.local entry.real) entry.virtual := by
  induction peers generalizing out with
  | nil => simp [applyAll]
  | cons peer peers ih =>
    obtain ⟨plan, planned⟩ := all peer mem_cons_self
    obtain ⟨-, -, locals⟩ := peerPlan_eq_ok planned
    rw [map_cons, flatten_cons, applyAll_append,
      ih fun other mem => all other (mem_cons_of_mem _ mem),
      peerRequests_of_plan planned,
      Outcome.getD, mem_applyAll_planRequests, locals, or_assoc]
    simp

/-- No virtual range is claimed by two sources. -/
def SingleOwner (r : RemapReconciler) (peers : List MeshPeer) : Prop :=
  ∀ virtual left right, r.Claims peers virtual left → r.Claims peers virtual right → left = right

/-- Every request exists and all agree when every plan exists and no range has two sources. -/
theorem requests_consistent_iff (peers : List MeshPeer) :
    (∃ produced, peers.mapM r.peerRequests = .ok produced ∧ Consistent (claimsOf produced)) ↔
      (∀ peer ∈ peers,
        Placeable r.remapPool r.clusterID peer.spec.clusterID (r.peerPlacements peer)) ∧
      r.SingleOwner peers := by
  simp only [Outcome.mapM_eq_ok _ [], exists_peerRequests_iff]
  constructor
  · rintro ⟨produced, ⟨all, rfl⟩, consistent⟩
    refine ⟨fun peer mem => exists_peerPlan_iff.mp (all peer mem), ?_⟩
    intro virtual left right in_left in_right
    exact consistent virtual left right ((mem_claimsOf_iff all _ _).mpr in_left)
      ((mem_claimsOf_iff all _ _).mpr in_right)
  · rintro ⟨placeable, agree⟩
    have all : ∀ peer ∈ peers, ∃ plan, r.peerPlan peer = .ok plan :=
      fun peer mem => exists_peerPlan_iff.mpr (placeable peer mem)
    refine ⟨_, ⟨all, rfl⟩, ?_⟩
    intro virtual left right in_left in_right
    exact agree virtual left right ((mem_claimsOf_iff all _ _).mp in_left)
      ((mem_claimsOf_iff all _ _).mp in_right)

theorem buildEntries_ok_iff (peers : List MeshPeer) :
    (∃ entries, r.buildEntries peers = .ok entries) ↔ (∀ peer ∈ peers,
        Placeable r.remapPool r.clusterID peer.spec.clusterID (r.peerPlacements peer)) ∧
      r.SingleOwner peers := by
  rw [← requests_consistent_iff]
  simp only [buildEntries, buildLoop_eq_run, Outcome.bind_eq_ok]
  constructor
  · rintro ⟨entries, ⟨next, out⟩, passed, -⟩
    obtain ⟨produced, all, consistent, -⟩ :=
      (run_eq_ok (entryCollision r.remapPool) r.peerRequests peers owns_empty [] out).mp
        ⟨next, passed⟩
    exact ⟨produced, all, consistent⟩
  · rintro ⟨produced, all, consistent⟩
    obtain ⟨next, passed⟩ :=
      (run_eq_ok (entryCollision r.remapPool) r.peerRequests peers owns_empty [] _).mpr
        ⟨produced, all, consistent, rfl⟩
    exact ⟨_, _, passed, rfl⟩

theorem buildEntries_eq_panic_iff (peers : List MeshPeer) :
    r.buildEntries peers = .panic ↔
      ∃ before peer after, peers = before ++ peer :: after ∧
        ((∀ earlier ∈ before, Placeable r.remapPool r.clusterID earlier.spec.clusterID
          (r.peerPlacements earlier)) ∧ r.SingleOwner before) ∧
        r.peerPlan peer = .panic := by
  have requests_panic : ∀ peer, r.peerRequests peer = .panic ↔ r.peerPlan peer = .panic := by
    intro peer
    simp [peerRequests, Outcome.bind_eq_panic]
  simp only [buildEntries, buildLoop_eq_run, Outcome.bind_eq_panic, run_eq_panic, requests_panic,
    Outcome.pure_eq_ok, reduceCtorEq, and_false, exists_false, or_false, ← requests_consistent_iff]
  constructor
  · rintro ⟨before, peer, after, produced, split, all, consistent, panics⟩
    exact ⟨before, peer, after, split, ⟨produced, all, consistent⟩, panics⟩
  · rintro ⟨before, peer, after, split, ⟨produced, all, consistent⟩, panics⟩
    exact ⟨before, peer, after, produced, split, all, consistent, panics⟩

theorem mem_buildEntries {entries : List RemapEntry} (built : r.buildEntries peers = .ok entries)
    (entry : RemapEntry) :
    entry ∈ entries ↔ ∃ peer ∈ peers, .local entry.real ∈ r.peerPlacements peer ∧
      r.allocates peer (.local entry.real) entry.virtual := by
  rw [buildEntries] at built
  obtain ⟨⟨next, out⟩, passed, returned⟩ := Outcome.bind_eq_ok.mp built
  obtain rfl := Outcome.ok.inj returned
  rw [buildLoop_eq_run] at passed
  obtain ⟨produced, all, -, rfl⟩ :=
    (run_eq_ok (entryCollision r.remapPool) r.peerRequests peers owns_empty [] out).mp
      ⟨next, passed⟩
  rw [Outcome.mapM_eq_ok _ []] at all
  obtain ⟨all, rfl⟩ := all
  rw [mem_applyAll_peers fun peer mem => exists_peerRequests_iff.mp (all peer mem)]
  simp

end RemapReconciler

end DatawerxMesh.Controllers
