import DatawerxMesh.Topology.VirtualRange

/-!
# `PlanRemap` as an ownership run

The nested loops of `PlanRemap` place one range after another, and a plan exists exactly when no two
different ranges share a virtual one.
-/

namespace DatawerxMesh.Topology

open Go Addressing Program Ownership List Outcome

/-- A range that `PlanRemap` places in the pool. -/
inductive Placement where
  | peer (cidr : Str)
  | «local» (real : Str)
  deriving DecidableEq

/-- The ranges placed for one conflicting peer CIDR. -/
def placementsOf (locals : List IPNet) (cidr : Str) : List Placement :=
  match parseNet cidr with
  | none => []
  | some peerNet =>
    .peer cidr :: (locals.filter fun localNet => cidrsOverlap localNet peerNet).map
        fun localNet => .local localNet.string

/-- The ranges placed by `PlanRemap`, in order. -/
def placements (locals : List IPNet) (conflicts : List Str) : List Placement :=
  conflicts.flatMap (placementsOf locals)

theorem mem_placements_peer {locals : List IPNet} {conflicts : List Str} {cidr : Str} :
    .peer cidr ∈ placements locals conflicts ↔ cidr ∈ conflicts ∧ (parseNet cidr).isSome := by
  simp only [placements, mem_flatMap, placementsOf]
  constructor
  · rintro ⟨conflict, mem, placed⟩
    cases parsed : parseNet conflict with
    | none => simp [parsed] at placed
    | some peerNet =>
      simp only [parsed, mem_cons, Placement.peer.injEq, mem_map, reduceCtorEq,
        and_false, exists_false, or_false] at placed
      subst placed
      exact ⟨mem, by rw [parsed]; rfl⟩
  · rintro ⟨mem, parses⟩
    obtain ⟨peerNet, parsed⟩ := Option.isSome_iff_exists.mp parses
    exact ⟨cidr, mem, by simp [parsed]⟩

theorem mem_placements_local {locals : List IPNet} {conflicts : List Str} {real : Str} :
    .local real ∈ placements locals conflicts ↔
      ∃ cidr ∈ conflicts, ∃ peerNet, parseNet cidr = some peerNet ∧
        ∃ localNet ∈ locals, cidrsOverlap peerNet localNet = true ∧ real = localNet.string := by
  simp only [placements, mem_flatMap, placementsOf]
  refine exists_congr fun cidr => and_congr_right fun _ => ?_
  cases parsed : parseNet cidr with
  | none => simp
  | some peerNet =>
    simp only [mem_cons, reduceCtorEq, mem_map, mem_filter, Placement.local.injEq,
      false_or, Option.some.injEq]
    constructor
    · rintro ⟨localNet, ⟨mem, overlap⟩, rfl⟩
      exact ⟨peerNet, rfl, localNet, mem, cidrsOverlap_comm peerNet localNet ▸ overlap, rfl⟩
    · rintro ⟨_, rfl, localNet, mem, overlap, rfl⟩
      exact ⟨localNet, ⟨mem, cidrsOverlap_comm localNet peerNet ▸ overlap⟩, rfl⟩

namespace Placement

/-- The cluster and the text that are hashed for a range. -/
def key (localClusterID peerClusterID : Str) : Placement → Str × Str
  | peer cidr => (peerClusterID, cidr)
  | «local» real => (localClusterID, real)

/-- The virtual range of a placement. -/
def allocate (pool localClusterID peerClusterID : Str) : Placement → Outcome PlanError Str
  | peer cidr => (virtualCIDR pool peerClusterID cidr).mapErr (.peer peerClusterID cidr)
  | «local» real => (virtualCIDR pool localClusterID real).mapErr (.local real)

/-- Who claims it. -/
def source (localClusterID peerClusterID : Str) : Placement → Str
  | peer cidr => peerSource peerClusterID cidr
  | «local» real => localSource localClusterID real

/-- The plan with it. -/
def record (virtual : Str) : Placement → RemapMaps → RemapMaps
  | peer _, maps => { maps with routeSet := maps.routeSet.insert virtual }
  | «local» real, maps => { maps with localSet := maps.localSet.insert real ⟨real, virtual⟩ }

/-- The claim of a placed range on its virtual range. -/
def request (localClusterID peerClusterID : Str) (placement : Placement) (virtual : Str) :
    Request Str Str RemapMaps where
  key := virtual
  source := placement.source localClusterID peerClusterID
  update := placement.record virtual

/-- Allocation of a placed range as a list of requests. -/
def produce (pool localClusterID peerClusterID : Str) (placement : Placement) :
    Outcome PlanError (List (Request Str Str RemapMaps)) :=
  placement.allocate pool localClusterID peerClusterID >>= fun virtual =>
    pure [placement.request localClusterID peerClusterID virtual]

theorem source_injective {localClusterID peerClusterID : Str} {left right : Placement}
    (same : left.source localClusterID peerClusterID =
      right.source localClusterID peerClusterID) : left = right := by
  cases left with
  | peer leftCidr =>
    cases right with
    | peer rightCidr =>
      simp only [source, peerSource] at same
      rw [append_cancel_left same]
    | «local» real =>
      have heads := congrArg List.head? same
      cases heads
  | «local» leftReal =>
    cases right with
    | peer cidr =>
      have heads := congrArg List.head? same
      cases heads
    | «local» rightReal =>
      simp only [source, localSource] at same
      rw [append_cancel_left same]

theorem allocate_eq_ok {pool localClusterID peerClusterID virtual : Str} {placement : Placement} :
    placement.allocate pool localClusterID peerClusterID = .ok virtual ↔
      virtualCIDR pool (placement.key localClusterID peerClusterID).1
        (placement.key localClusterID peerClusterID).2 = .ok virtual := by
  cases placement <;> exact mapErr_eq_ok

/-- The block of a dotted pool in which a placed range is presented. -/
def block (poolBlock : Block 32) (localClusterID peerClusterID : Str) (placement : Placement) :
    Option (Block 32) :=
  presentedBlock poolBlock (placement.key localClusterID peerClusterID).1
    (placement.key localClusterID peerClusterID).2

end Placement

/-- The error of a range claimed twice. -/
def planCollision (pool virtual previous source : Str) : PlanError :=
  .collision pool previous source virtual

theorem claim_then_record (pool localClusterID peerClusterID : Str) (placement : Placement)
    (state : RemapState) :
    (placement.produce pool localClusterID peerClusterID >>= fun requests =>
        requests.foldlM (settle (planCollision pool)) state) =
      (placement.allocate pool localClusterID peerClusterID >>= fun virtual =>
        claimVirtual pool state.1 virtual (placement.source localClusterID peerClusterID) >>=
          fun owner => pure (owner, placement.record virtual state.2)) := by
  cases allocated : placement.allocate pool localClusterID peerClusterID with
  | err error => simp [Placement.produce, allocated]
  | panic => simp [Placement.produce, allocated]
  | ok virtual =>
    simp only [Placement.produce, allocated, ok_bind, pure_eq_ok,
      foldlM_cons, foldlM_nil, settle, Placement.request, claimVirtual, planCollision]
    cases Ownership.claim state.1 virtual (placement.source localClusterID peerClusterID) <;> rfl

theorem planLoop_eq_run (pool localClusterID peerClusterID : Str) (locals : List IPNet)
    (conflicts : List Str) (state : RemapState) :
    conflicts.foldlM (planConflict pool localClusterID peerClusterID locals) state =
      Ownership.run (planCollision pool) (Placement.produce pool localClusterID peerClusterID)
        (placements locals conflicts) state := by
  rw [Ownership.run, placements, foldlM_flatMap]
  congr 1
  funext current cidr
  simp only [claim_then_record]
  rw [planConflict, placementsOf]
  cases parseNet cidr with
  | none => rfl
  | some peerNet =>
    simp only [foldlM_cons, foldlM_map, foldlM_filter, bind_assoc]
    refine bind_congr fun virtual => bind_congr fun owner => ?_
    rw [pure_bind]
    congr 1
    funext reached localNet
    rw [planLocal]
    cases cidrsOverlap localNet peerNet <;> rfl

/-- Enter placed ranges one after another. -/
def recordAll (virtualOf : Placement → Str) (placed : List Placement) (maps : RemapMaps) :
    RemapMaps :=
  placed.foldl (fun current placement => placement.record (virtualOf placement) current) maps

theorem mem_routeSet_recordAll (virtualOf : Placement → Str) (placed : List Placement)
    (maps : RemapMaps) (virtual : Str) :
    virtual ∈ (recordAll virtualOf placed maps).routeSet ↔
      virtual ∈ maps.routeSet ∨ ∃ cidr, .peer cidr ∈ placed ∧ virtualOf (.peer cidr) = virtual := by
  induction placed generalizing maps with
  | nil => simp [recordAll]
  | cons placement placed ih =>
    rw [recordAll, foldl_cons, ← recordAll, ih]
    cases placement with
    | peer cidr =>
      simp only [Placement.record, mem_insert_iff, mem_cons, Placement.peer.injEq]
      grind
    | «local» real => simp [Placement.record]

theorem lookup_localSet_recordAll (virtualOf : Placement → Str) (placed : List Placement)
    (maps : RemapMaps) (real : Str) :
    (recordAll virtualOf placed maps).localSet.lookup real =
      if .local real ∈ placed then some ⟨real, virtualOf (.local real)⟩
      else maps.localSet.lookup real := by
  induction placed generalizing maps with
  | nil => simp [recordAll]
  | cons placement placed ih =>
    rw [recordAll, foldl_cons, ← recordAll, ih]
    cases placement with
    | peer cidr => simp [Placement.record]
    | «local» other =>
      by_cases later : .local real ∈ placed
      · simp [later]
      · by_cases same : real = other
        · subst same
          simp [Placement.record, later]
        · simp [Placement.record, later, same, AList.lookup_insert_ne same]

/-- The plan, sorted. -/
def RemapMaps.plan (maps : RemapMaps) : RemapPlan where
  routeVirtual := sortStrings maps.routeSet
  locals := (sortStrings maps.localSet.keys).filterMap maps.localSet.lookup

theorem RemapMaps.mem_plan_locals {maps : RemapMaps} {pair : Remap} :
    pair ∈ maps.plan.locals ↔ ∃ real, maps.localSet.lookup real = some pair := by
  simp only [plan, mem_filterMap, sortStrings, Sorting.mem_sort]
  refine exists_congr fun real => and_iff_right_of_imp fun found => ?_
  exact AList.mem_keys.mp (AList.lookup_isSome.mp (by rw [found]; rfl))

section Specification

variable (pool localClusterID peerClusterID : Str)

/-- Every range is given a virtual range, and different ranges are given different ones. -/
def Placeable (placed : List Placement) : Prop :=
  (∀ placement ∈ placed, ∃ virtual,
    placement.allocate pool localClusterID peerClusterID = .ok virtual) ∧
  ∀ left ∈ placed, ∀ right ∈ placed, ∀ virtual,
    left.allocate pool localClusterID peerClusterID = .ok virtual →
    right.allocate pool localClusterID peerClusterID = .ok virtual → left = right

/-- The virtual range of a range that is given one. -/
def virtualOf (placement : Placement) : Str :=
  (placement.allocate pool localClusterID peerClusterID).getD []

variable {pool localClusterID peerClusterID}

theorem allocate_eq_virtualOf {placement : Placement} {virtual : Str}
    (allocated : placement.allocate pool localClusterID peerClusterID = .ok virtual) :
    virtualOf pool localClusterID peerClusterID placement = virtual := by
  rw [virtualOf, allocated]
  rfl

theorem mapM_produce_eq_ok (placed : List Placement)
    (produced : List (List (Request Str Str RemapMaps))) :
    placed.mapM (Placement.produce pool localClusterID peerClusterID) = .ok produced ↔
      (∀ placement ∈ placed, ∃ virtual,
        placement.allocate pool localClusterID peerClusterID = .ok virtual) ∧
      produced = placed.map fun placement => [placement.request localClusterID peerClusterID
        (virtualOf pool localClusterID peerClusterID placement)] := by
  rw [mapM_eq_ok _ []]
  have produces : ∀ {placement : Placement} {virtual : Str},
      placement.allocate pool localClusterID peerClusterID = .ok virtual →
      placement.produce pool localClusterID peerClusterID =
        .ok [placement.request localClusterID peerClusterID
          (virtualOf pool localClusterID peerClusterID placement)] := by
    intro placement virtual allocated
    rw [Placement.produce, allocate_eq_virtualOf allocated, allocated]
    rfl
  have each : ∀ placement : Placement,
      (∃ requests, placement.produce pool localClusterID peerClusterID = .ok requests) ↔
        ∃ virtual, placement.allocate pool localClusterID peerClusterID = .ok virtual := by
    intro placement
    constructor
    · rintro ⟨requests, done⟩
      obtain ⟨virtual, allocated, _⟩ := bind_eq_ok.mp done
      exact ⟨virtual, allocated⟩
    · rintro ⟨virtual, allocated⟩
      exact ⟨_, produces allocated⟩
  simp only [each]
  refine and_congr_right fun all => ?_
  rw [map_congr_left]
  intro placement mem
  obtain ⟨virtual, allocated⟩ := all placement mem
  rw [produces allocated]
  rfl

theorem consistent_claims_iff (placed : List Placement) (all : ∀ placement ∈ placed, ∃ virtual,
      placement.allocate pool localClusterID peerClusterID = .ok virtual) :
    Consistent (claimsOf (placed.map fun placement =>
        [placement.request localClusterID peerClusterID
          (virtualOf pool localClusterID peerClusterID placement)])) ↔
      Placeable pool localClusterID peerClusterID placed := by
  have claims_eq : claimsOf (placed.map fun placement =>
      [placement.request localClusterID peerClusterID
        (virtualOf pool localClusterID peerClusterID placement)]) =
      placed.map fun placement => (virtualOf pool localClusterID peerClusterID placement,
        placement.source localClusterID peerClusterID) := by
    induction placed with
    | nil => rfl
    | cons placement placed ih =>
      have tail := ih fun other mem => all other (mem_cons_of_mem _ mem)
      rw [map_cons, map_cons, ← tail]
      rfl
  rw [claims_eq]
  constructor
  · intro consistent
    refine ⟨all, fun left in_left right in_right virtual left_ok right_ok => ?_⟩
    have same : left.source localClusterID peerClusterID =
        right.source localClusterID peerClusterID := by
      refine consistent virtual _ _ ?_ ?_
      · exact mem_map.mpr ⟨left, in_left, by rw [allocate_eq_virtualOf left_ok]⟩
      · exact mem_map.mpr ⟨right, in_right, by rw [allocate_eq_virtualOf right_ok]⟩
    exact Placement.source_injective same
  · rintro ⟨-, separate⟩ virtual leftSource rightSource in_left in_right
    obtain ⟨left, left_mem, left_eq⟩ := mem_map.mp in_left
    obtain ⟨right, right_mem, right_eq⟩ := mem_map.mp in_right
    obtain ⟨leftVirtual, left_ok⟩ := all left left_mem
    obtain ⟨rightVirtual, right_ok⟩ := all right right_mem
    rw [allocate_eq_virtualOf left_ok, Prod.mk.injEq] at left_eq
    rw [allocate_eq_virtualOf right_ok, Prod.mk.injEq] at right_eq
    rw [left_eq.1] at left_ok
    rw [right_eq.1] at right_ok
    rw [← left_eq.2, ← right_eq.2, separate left left_mem right right_mem virtual left_ok right_ok]

theorem applyAll_requests (placed : List Placement) (maps : RemapMaps) :
    applyAll (placed.map fun placement => [placement.request localClusterID peerClusterID
        (virtualOf pool localClusterID peerClusterID placement)]).flatten maps =
      recordAll (virtualOf pool localClusterID peerClusterID) placed maps := by
  induction placed generalizing maps with
  | nil => rfl
  | cons placement placed ih => exact ih _

theorem planLoop_eq_ok (locals : List IPNet) (conflicts : List Str) (maps : RemapMaps) :
    (∃ owner, conflicts.foldlM (planConflict pool localClusterID peerClusterID locals)
        (∅, ⟨[], ∅⟩) = .ok (owner, maps)) ↔
      Placeable pool localClusterID peerClusterID (placements locals conflicts) ∧
      maps = recordAll (virtualOf pool localClusterID peerClusterID) (placements locals conflicts)
        ⟨[], ∅⟩ := by
  simp only [planLoop_eq_run, run_eq_ok _ _ _ owns_empty, nil_append, mapM_produce_eq_ok]
  constructor
  · rintro ⟨produced, ⟨all, rfl⟩, consistent, rfl⟩
    exact ⟨(consistent_claims_iff _ all).mp consistent, by rw [applyAll_requests]⟩
  · rintro ⟨placeable, rfl⟩
    exact ⟨_, ⟨placeable.1, rfl⟩, (consistent_claims_iff _ placeable.1).mpr placeable,
      by rw [applyAll_requests]⟩

theorem planRemap_eq_ok (localCIDRs conflicts : List Str) (plan : RemapPlan) :
    planRemap pool localClusterID localCIDRs peerClusterID conflicts = .ok plan ↔
      Placeable pool localClusterID peerClusterID
        (placements (parseCIDRList localCIDRs) conflicts) ∧
      plan = (recordAll (virtualOf pool localClusterID peerClusterID)
        (placements (parseCIDRList localCIDRs) conflicts) ⟨[], ∅⟩).plan := by
  rw [planRemap]
  simp only [bind_eq_ok]
  constructor
  · rintro ⟨⟨owner, maps⟩, looped, returned⟩
    obtain ⟨placeable, rfl⟩ := (planLoop_eq_ok _ _ maps).mp ⟨owner, looped⟩
    exact ⟨placeable, (Outcome.ok.inj returned).symm⟩
  · rintro ⟨placeable, rfl⟩
    obtain ⟨owner, looped⟩ := (planLoop_eq_ok _ _ _).mpr ⟨placeable, rfl⟩
    exact ⟨_, looped, rfl⟩

variable {localCIDRs conflicts : List Str} {plan : RemapPlan}
  (planned : planRemap pool localClusterID localCIDRs peerClusterID conflicts = .ok plan)

include planned

theorem mem_routeVirtual (virtual : Str) :
    virtual ∈ plan.routeVirtual ↔
      ∃ cidr, .peer cidr ∈ placements (parseCIDRList localCIDRs) conflicts ∧
        virtualCIDR pool peerClusterID cidr = .ok virtual := by
  obtain ⟨⟨all, -⟩, rfl⟩ := (planRemap_eq_ok localCIDRs conflicts plan).mp planned
  simp only [RemapMaps.plan, sortStrings, Sorting.mem_sort, mem_routeSet_recordAll,
    not_mem_nil, false_or]
  refine exists_congr fun cidr => and_congr_right fun mem => ?_
  obtain ⟨other, allocated⟩ := all _ mem
  have returned : virtualCIDR pool peerClusterID cidr = .ok other :=
    Placement.allocate_eq_ok.mp allocated
  rw [allocate_eq_virtualOf allocated, returned, Outcome.ok.injEq]

theorem mem_locals (pair : Remap) :
    pair ∈ plan.locals ↔
      .local pair.real ∈ placements (parseCIDRList localCIDRs) conflicts ∧
        virtualCIDR pool localClusterID pair.real = .ok pair.virtual := by
  obtain ⟨⟨all, -⟩, rfl⟩ := (planRemap_eq_ok localCIDRs conflicts plan).mp planned
  simp only [RemapMaps.mem_plan_locals, lookup_localSet_recordAll]
  constructor
  · rintro ⟨real, found⟩
    split at found
    · rename_i mem
      obtain ⟨virtual, allocated⟩ := all _ mem
      obtain rfl := Option.some.inj found
      rw [allocate_eq_virtualOf allocated]
      exact ⟨mem, Placement.allocate_eq_ok.mp allocated⟩
    · simp at found
  · rintro ⟨mem, allocated⟩
    refine ⟨pair.real, ?_⟩
    rw [if_pos mem, allocate_eq_virtualOf (Placement.allocate_eq_ok.mpr allocated)]

end Specification

/-- The pool has a block for every range, and different ranges are given different blocks. -/
def Separated (poolBlock : Block 32) (localClusterID peerClusterID : Str)
    (placed : List Placement) : Prop :=
  (∀ placement ∈ placed, (placement.block poolBlock localClusterID peerClusterID).isSome) ∧
  ∀ left ∈ placed, ∀ right ∈ placed,
    left.block poolBlock localClusterID peerClusterID =
      right.block poolBlock localClusterID peerClusterID → left = right

theorem placeable_iff_separated {pool : Str} {poolBlock : Block 32}
    (pool_eq : parseNet pool = some (.four poolBlock)) (localClusterID peerClusterID : Str)
    (placed : List Placement) :
    Placeable pool localClusterID peerClusterID placed ↔
      Separated poolBlock localClusterID peerClusterID placed := by
  have given : ∀ (placement : Placement) (virtual : Str),
      placement.allocate pool localClusterID peerClusterID = .ok virtual ↔
        ∃ block, placement.block poolBlock localClusterID peerClusterID = some block ∧
          virtual = blockText block :=
    fun placement virtual => Placement.allocate_eq_ok.trans (virtualCIDR_eq_ok pool_eq)
  constructor
  · rintro ⟨all, separate⟩
    refine ⟨fun placement mem => ?_, fun left in_left right in_right same => ?_⟩
    · obtain ⟨virtual, allocated⟩ := all placement mem
      obtain ⟨block, found, -⟩ := (given _ _).mp allocated
      rw [found]
      rfl
    · obtain ⟨virtual, allocated⟩ := all left in_left
      obtain ⟨block, found, text_eq⟩ := (given _ _).mp allocated
      exact separate left in_left right in_right virtual allocated
        ((given _ _).mpr ⟨block, same ▸ found, text_eq⟩)
  · rintro ⟨all, separate⟩
    refine ⟨fun placement mem => ?_,
      fun left in_left right in_right virtual left_ok right_ok => ?_⟩
    · obtain ⟨block, found⟩ := Option.isSome_iff_exists.mp (all placement mem)
      exact ⟨blockText block, (given _ _).mpr ⟨block, found, rfl⟩⟩
    · obtain ⟨leftBlock, left_eq, rfl⟩ := (given _ _).mp left_ok
      obtain ⟨rightBlock, right_eq, same⟩ := (given _ _).mp right_ok
      apply separate left in_left right in_right
      rw [left_eq, right_eq, blockText_injective same]

/-- Local ranges are rendered in dotted notation before they are allocated, so they never panic. -/
theorem planConflict_eq_panic {pool localClusterID peerClusterID cidr : Str} {locals : List IPNet}
    {state : RemapState} :
    planConflict pool localClusterID peerClusterID locals state cidr = .panic ↔
      DottedCIDR pool ∧ MappedCIDR cidr := by
  rw [planConflict]
  cases parsed : parseNet cidr with
  | none => simp [MappedCIDR, parsed]
  | some peerNet =>
    simp only [bind_eq_panic, mapErr_eq_panic, mapErr_eq_ok, virtualCIDR_eq_panic, foldlM_eq_panic]
    refine ⟨?_, Or.inl⟩
    rintro (now | ⟨virtual, allocated, claim_panic | ⟨owner, -, before, localNet, after, reached,
      -, -, local_panic⟩⟩)
    · exact now
    · unfold claimVirtual at claim_panic
      split at claim_panic <;> cases claim_panic
    · exfalso
      rw [planLocal] at local_panic
      cases overlap : cidrsOverlap localNet peerNet with
      | false => simp [overlap] at local_panic
      | true =>
        simp only [overlap, Bool.not_true, Bool.false_eq_true, if_false, bind_eq_panic,
          mapErr_eq_panic, virtualCIDR_eq_panic] at local_panic
        obtain ⟨⟨poolBlock, pool_eq⟩, block, low, mapped_eq, -⟩ | ⟨_, -, later⟩ := local_panic
        · obtain ⟨peerBlock, presented, -⟩ := (virtualCIDR_eq_ok pool_eq).mp allocated
          obtain ⟨realBlock, real_eq, -⟩ := presentedBlock_eq_some.mp presented
          obtain rfl := Option.some.inj (parsed.symm.trans real_eq)
          have same_family := block4_of_cidrsOverlap overlap
          obtain ⟨localBlock, view⟩ := Option.isSome_iff_exists.mp same_family
          rw [IPNet.string_of_block4 view, parseNet_blockText] at mapped_eq
          cases mapped_eq
        · obtain claim_panic | ⟨_, -, done⟩ := later
          · unfold claimVirtual at claim_panic
            split at claim_panic <;> cases claim_panic
          · cases done

/-- The planner comes to an IPv4-mapped CIDR: the pool is dotted and has separate blocks for all
that is placed before. -/
def ReachesMapped (pool localClusterID : Str) (localCIDRs : List Str) (peerClusterID : Str)
    (conflicts : List Str) : Prop :=
  ∃ poolBlock before cidr after, parseNet pool = some (.four poolBlock) ∧
    conflicts = before ++ cidr :: after ∧ MappedCIDR cidr ∧
    Separated poolBlock localClusterID peerClusterID (placements (parseCIDRList localCIDRs) before)

theorem planRemap_eq_panic {pool localClusterID peerClusterID : Str}
    {localCIDRs conflicts : List Str} :
    planRemap pool localClusterID localCIDRs peerClusterID conflicts = .panic ↔
      ReachesMapped pool localClusterID localCIDRs peerClusterID conflicts := by
  rw [planRemap]
  simp only [bind_eq_panic, foldlM_eq_panic, planConflict_eq_panic,
    pure_eq_ok, reduceCtorEq, and_false, exists_false, or_false]
  constructor
  · rintro ⟨before, cidr, after, ⟨owner, maps⟩, split, passed, ⟨poolBlock, pool_eq⟩, mapped_cidr⟩
    refine ⟨poolBlock, before, cidr, after, pool_eq, split, mapped_cidr, ?_⟩
    rw [← placeable_iff_separated pool_eq]
    exact ((planLoop_eq_ok _ _ maps).mp ⟨owner, passed⟩).1
  · rintro ⟨poolBlock, before, cidr, after, pool_eq, split, mapped_cidr, separated⟩
    rw [← placeable_iff_separated pool_eq] at separated
    obtain ⟨owner, passed⟩ := (planLoop_eq_ok _ _ _).mpr ⟨separated, rfl⟩
    exact ⟨before, cidr, after, _, split, passed, ⟨poolBlock, pool_eq⟩, mapped_cidr⟩

end DatawerxMesh.Topology
