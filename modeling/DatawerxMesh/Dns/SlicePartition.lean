import DatawerxMesh.Dns.Mirror
import DatawerxMesh.Library.Joining

/-!
# Mirrored slices partition the endpoints

The slices of `PlanEndpointSlices` have names of their own unless a name is shortened, and each
address of a cluster that can be read stands in exactly one of them.
-/

namespace DatawerxMesh.Dns

open Go Sorting Joining Accumulation List

theorem mirrorSliceName_of_short {importName cluster : Str} {fam : AddressType} {chunk : Nat}
    (short : (fullSliceName importName cluster fam chunk).length ≤ 253) :
    mirrorSliceName importName cluster fam chunk = fullSliceName importName cluster fam chunk :=
  if_pos short

theorem dash_not_mem_itoa (n : Nat) : (45 : UInt8) ∉ itoa n := fun dash =>
  absurd (isDigit_of_mem_itoa dash) (by decide)

theorem dash_not_mem_short (fam : AddressType) : (45 : UInt8) ∉ fam.short := by
  cases fam <;> decide

theorem AddressType.short_injective : AddressType.short.Injective := by
  intro left right same
  revert same
  cases left <;> cases right <;> decide

theorem fullSliceName_eq (importName cluster : Str) (fam : AddressType) (chunk : Nat) :
    fullSliceName importName cluster fam chunk =
      ((importName ++ 45 :: cluster) ++ 45 :: fam.short) ++ 45 :: itoa chunk := by
  have dash : str "-" = [45] := by decide
  simp only [fullSliceName, dash, append_assoc, cons_append, nil_append]

theorem fullSliceName_injective {importName cluster cluster' : Str} {fam fam' : AddressType}
    {chunk chunk' : Nat} (same : fullSliceName importName cluster fam chunk =
      fullSliceName importName cluster' fam' chunk') :
    cluster = cluster' ∧ fam = fam' ∧ chunk = chunk' := by
  rw [fullSliceName_eq, fullSliceName_eq] at same
  -- The number and the family have no dash, so the name splits at its last dash twice.
  obtain ⟨front, chunks_eq⟩ :=
    append_cons_inj_of_absent (dash_not_mem_itoa chunk) (dash_not_mem_itoa chunk') same
  obtain ⟨clusters, fams_eq⟩ :=
    append_cons_inj_of_absent (dash_not_mem_short fam) (dash_not_mem_short fam') front
  have clusters_eq := append_cancel_left clusters
  rw [List.cons.injEq] at clusters_eq
  exact ⟨clusters_eq.2, AddressType.short_injective fams_eq, itoa_injective chunks_eq⟩

theorem flatMap_chunks (addrs : List Str) : (chunks addrs).flatMap Prod.snd = addrs := by
  have cut : ∀ count, (List.range count).flatMap (fun chunk =>
      (addrs.drop (chunk * maxEndpointsPerSlice)).take maxEndpointsPerSlice) =
        addrs.take (count * maxEndpointsPerSlice) := by
    intro count
    induction count with
    | zero => simp
    | succ count ih =>
      rw [range_succ, flatMap_append, ih, flatMap_singleton, Nat.succ_mul, take_add]
  rw [chunks, flatMap_map]
  refine (cut _).trans (take_of_length_le ?_)
  rw [maxEndpointsPerSlice]
  omega

theorem length_of_mem_chunks {addrs : List Str} {chunk : Nat × List Str}
    (mem : chunk ∈ chunks addrs) :
    1 ≤ chunk.2.length ∧ chunk.2.length ≤ maxEndpointsPerSlice := by
  obtain ⟨left, part_eq⟩ := mem_chunks.mp mem
  rw [part_eq, length_take, length_drop]
  rw [maxEndpointsPerSlice] at left ⊢
  omega

theorem addressesOfFamily_perm (in_ : List Str) (fam : AddressType) :
    (addressesOfFamily in_ fam).Perm (in_.filter fun ip => familyOf ip = some fam).dedup :=
  sort_perm less _

theorem addressesOfFamily_congr {left right : List Str} (perm : left.Perm right)
    (fam : AddressType) : addressesOfFamily left fam = addressesOfFamily right fam :=
  sort_eq_of_perm less_orders (fun _ _ same => same) (perm.filter _).dedup

/-- The cluster that a slice names. -/
def MirroredSlice.sourceCluster (slice : MirroredSlice) : Option Str :=
  slice.labels.lookup (str "multicluster.kubernetes.io/source-cluster")

theorem sourceCluster_mirrorSlice (importName namespace_ cluster : Str) (fam : AddressType)
    (addrs : List Str) (ports : List EndpointPort) (chunk : Nat) :
    (mirrorSlice importName namespace_ cluster fam addrs ports chunk).sourceCluster =
      some cluster :=
  rfl

/-- The slices that mirror one cluster's addresses of one family. -/
def slicesOf (slices : List MirroredSlice) (cluster : Str) (fam : AddressType) :
    List MirroredSlice :=
  slices.filter fun slice => slice.sourceCluster = some cluster ∧ slice.addressType = fam

/-- No name of the plan is shortened. -/
def Unhashed (importName : Str) (endpoints : List ExportedEndpoint) : Prop :=
  ∀ ep ∈ endpoints, ∀ fam, ∀ chunk ∈ chunks (addressesOfFamily ep.ips fam),
    (fullSliceName importName ep.cluster fam chunk.1).length ≤ 253

/-- An endpoint with its addresses in another order. -/
def ExportedEndpoint.Reordered (left right : ExportedEndpoint) : Prop :=
  ∃ ips, ips.Perm right.ips ∧ left = { right with ips := ips }

theorem ExportedEndpoint.Reordered.clusterSlices_eq {left right : ExportedEndpoint}
    (reordered : left.Reordered right) (importName namespace_ : Str) :
    clusterSlices importName namespace_ left = clusterSlices importName namespace_ right := by
  obtain ⟨ips, perm, rfl⟩ := reordered
  simp only [clusterSlices, addressesOfFamily_congr perm]

section Plan

variable {importName : Str} (namespace_ : Str) {endpoints : List ExportedEndpoint}
  (go : Runtime MirrorSite)

theorem planEndpointSlices_perm (importName namespace_ : Str) (endpoints : List ExportedEndpoint) :
    (planEndpointSlices go importName namespace_ endpoints).Perm
      (endpoints.flatMap (clusterSlices importName namespace_)) :=
  (go.sortSlice_arranges .slices name_orders _).perm.trans
    ((go.sortSlice_arranges .endpoints lessCluster_orders endpoints).perm.flatMap_right _)

theorem name_ne_of_source {ep ep' : ExportedEndpoint} {fam fam' : AddressType}
    {chunk chunk' : Nat × List Str} (short : Unhashed importName endpoints)
    (mem : ep ∈ endpoints) (member' : ep' ∈ endpoints)
    (cut : chunk ∈ chunks (addressesOfFamily ep.ips fam))
    (cut' : chunk' ∈ chunks (addressesOfFamily ep'.ips fam'))
    (same : mirrorSliceName importName ep.cluster fam chunk.1 =
      mirrorSliceName importName ep'.cluster fam' chunk'.1) :
    ep.cluster = ep'.cluster ∧ fam = fam' ∧ chunk.1 = chunk'.1 := by
  rw [mirrorSliceName_of_short (short ep mem fam chunk cut),
    mirrorSliceName_of_short (short ep' member' fam' chunk' cut')] at same
  exact fullSliceName_injective same

theorem pairwise_chunks (addrs : List Str) : (chunks addrs).Pairwise fun a b => a.1 ≠ b.1 :=
  pairwise_map.mpr nodup_range

theorem pairwise_name_clusterSlices (short : Unhashed importName endpoints)
    {ep : ExportedEndpoint} (mem : ep ∈ endpoints) :
    (clusterSlices importName namespace_ ep).Pairwise fun a b => a.name ≠ b.name := by
  refine pairwise_flatMap.mpr ⟨fun fam _ => pairwise_map.mpr ?_, ?_⟩
  · refine (pairwise_chunks _).imp_of_mem fun cut cut' differ same => differ ?_
    exact (name_ne_of_source short mem mem cut cut' same).2.2
  · have families : [AddressType.ipv4, .ipv6].Pairwise (· ≠ ·) := by decide
    refine families.imp fun differ slice made slice' made' same => differ ?_
    obtain ⟨chunk, cut, rfl⟩ := mem_map.mp made
    obtain ⟨chunk', cut', rfl⟩ := mem_map.mp made'
    exact (name_ne_of_source short mem mem cut cut' same).2.1

section

variable (distinct : (endpoints.map ExportedEndpoint.cluster).Nodup)
  (short : Unhashed importName endpoints)

include distinct short

theorem pairwise_name_flatMap :
    (endpoints.flatMap (clusterSlices importName namespace_)).Pairwise
      fun a b => a.name ≠ b.name := by
  refine pairwise_flatMap.mpr ⟨fun ep => pairwise_name_clusterSlices namespace_ short, ?_⟩
  refine (pairwise_map.mp distinct).imp_of_mem ?_
  intro ep ep' mem member' differ slice made slice' made' same
  obtain ⟨fam, chunk, cut, rfl⟩ := mem_clusterSlices.mp made
  obtain ⟨fam', chunk', cut', rfl⟩ := mem_clusterSlices.mp made'
  exact differ (name_ne_of_source short mem member' cut cut' same).1

theorem nodup_name_planEndpointSlices :
    ((planEndpointSlices go importName namespace_ endpoints).map MirroredSlice.name).Nodup := by
  have own := pairwise_map.mpr (pairwise_name_flatMap namespace_ distinct short)
  exact ((planEndpointSlices_perm go importName namespace_ endpoints).map _).nodup_iff.mpr own

theorem sorted_planEndpointSlices :
    (planEndpointSlices go importName namespace_ endpoints).Pairwise
      fun a b => less a.name b.name = true := by
  have made_perm :=
    (go.sortSlice_arranges .endpoints lessCluster_orders endpoints).perm.flatMap_right
      (clusterSlices importName namespace_)
  have own := pairwise_map.mpr (pairwise_name_flatMap namespace_ distinct short)
  exact (go.sortSlice_arranges .slices name_orders _).strict name_orders
    ((made_perm.map _).nodup_iff.mpr own)

end

theorem slice_of_plan {namespace_ : Str} {go : Runtime MirrorSite} {slice : MirroredSlice}
    (mem : slice ∈ planEndpointSlices go importName namespace_ endpoints) :
    (1 ≤ slice.endpoints.length ∧ slice.endpoints.length ≤ 100) ∧
      (∀ endpoint ∈ slice.endpoints, ∃ ip, endpoint.addresses = [ip] ∧
        familyOf ip = some slice.addressType) ∧
      ∃ ep ∈ endpoints, slice.sourceCluster = some ep.cluster := by
  obtain ⟨ep, in_endpoints, made⟩ := mem_planEndpointSlices.mp mem
  obtain ⟨fam, chunk, cut, rfl⟩ := mem_clusterSlices.mp made
  refine ⟨?_, ?_, ep, in_endpoints, sourceCluster_mirrorSlice _ _ _ _ _ _ _⟩
  · simp only [mirrorSlice, length_map]
    exact length_of_mem_chunks cut
  · intro endpoint inside
    obtain ⟨ip, in_chunk, rfl⟩ := mem_map.mp inside
    have listed := mem_addressesOfFamily.mp (exists_chunk_iff.mp ⟨chunk, cut, in_chunk⟩)
    exact ⟨ip, rfl, listed.2⟩

theorem flatMap_slicesOf_clusterSlices (importName namespace_ : Str) (ep : ExportedEndpoint)
    (fam : AddressType) :
    (slicesOf (clusterSlices importName namespace_ ep) ep.cluster fam).flatMap
      MirroredSlice.addresses = addressesOfFamily ep.ips fam := by
  have families : ([AddressType.ipv4, .ipv6].map id).Nodup := by decide
  rw [slicesOf, clusterSlices, filter_flatMap, flatMap_eq_of_mem families]
  · rw [filter_eq_self.mpr, flatMap_map]
    · simp only [addresses_mirrorSlice]
      exact flatMap_chunks _
    · intro slice made
      obtain ⟨_, _, rfl⟩ := mem_map.mp made
      exact decide_eq_true ⟨sourceCluster_mirrorSlice _ _ _ _ _ _ _, rfl⟩
  · cases fam <;> decide
  · intro other _ differ
    refine filter_eq_nil_iff.mpr fun slice made => ?_
    obtain ⟨_, _, rfl⟩ := mem_map.mp made
    rw [decide_eq_true_eq]
    exact fun both => differ both.2

theorem flatMap_slicesOf_perm
    (distinct : (endpoints.map ExportedEndpoint.cluster).Nodup) {ep : ExportedEndpoint}
    (mem : ep ∈ endpoints) (fam : AddressType) :
    ((slicesOf (planEndpointSlices go importName namespace_ endpoints) ep.cluster fam).flatMap
      MirroredSlice.addresses).Perm (ep.ips.filter fun ip => familyOf ip = some fam).dedup := by
  have made := (planEndpointSlices_perm go importName namespace_ endpoints).filter fun slice =>
    slice.sourceCluster = some ep.cluster ∧ slice.addressType = fam
  refine (made.flatMap_right _).trans ?_
  rw [filter_flatMap, flatMap_eq_of_mem distinct mem]
  · exact (flatMap_slicesOf_clusterSlices importName namespace_ ep fam).symm ▸
      addressesOfFamily_perm ep.ips fam
  · intro other _ differ
    refine filter_eq_nil_iff.mpr fun slice other_made => ?_
    obtain ⟨_, _, _, rfl⟩ := mem_clusterSlices.mp other_made
    rw [decide_eq_true_eq, sourceCluster_mirrorSlice, Option.some.injEq]
    exact fun both => differ both.1

/-- Neither the order of the clusters nor that of their addresses is seen in the plan. -/
theorem planEndpointSlices_reordered (go go' : Runtime MirrorSite)
    (distinct : (endpoints.map ExportedEndpoint.cluster).Nodup)
    (short : Unhashed importName endpoints) {arrived : List ExportedEndpoint}
    (shuffled : Shuffle ExportedEndpoint.Reordered arrived endpoints) :
    planEndpointSlices go' importName namespace_ arrived =
      planEndpointSlices go importName namespace_ endpoints := by
  have sorted_perm (run : Runtime MirrorSite) (listed : List ExportedEndpoint) :=
    ((run.sortSlice_arranges .endpoints lessCluster_orders listed).perm.flatMap_right
      (clusterSlices importName namespace_))
  have made : (arrived.flatMap (clusterSlices importName namespace_)).Perm
      (endpoints.flatMap (clusterSlices importName namespace_)) :=
    shuffled.flatMap_perm fun _ _ reordered =>
      .of_eq (reordered.clusterSlices_eq importName namespace_)
  have own := pairwise_map.mpr (pairwise_name_flatMap namespace_ distinct short)
  refine go'.sortSlice_eq go .slices name_orders ?_
    ((sorted_perm go' arrived).trans (made.trans (sorted_perm go endpoints).symm))
  have members := (sorted_perm go' arrived).trans made
  exact inj_on_of_nodup_map ((members.map MirroredSlice.name).nodup_iff.mpr own)

end Plan

/-- `PlanEndpointSlices` cuts the addresses of clusters of their own into slices of one family and
one source, each with a name of its own, and does not see the order in which it was given them. -/
theorem planEndpointSlices_partitions (go : Runtime MirrorSite) (importName namespace_ : Str)
    (endpoints : List ExportedEndpoint)
    (distinct : (endpoints.map ExportedEndpoint.cluster).Nodup)
    (short : Unhashed importName endpoints) :
    let slices := planEndpointSlices go importName namespace_ endpoints
    (slices.map MirroredSlice.name).Nodup ∧
      slices.Pairwise (fun a b => less a.name b.name = true) ∧
      (∀ slice ∈ slices, (1 ≤ slice.endpoints.length ∧ slice.endpoints.length ≤ 100) ∧
        (∀ endpoint ∈ slice.endpoints, ∃ ip, endpoint.addresses = [ip] ∧
          familyOf ip = some slice.addressType) ∧
        ∃ ep ∈ endpoints, slice.sourceCluster = some ep.cluster) ∧
      (∀ ep ∈ endpoints, ∀ fam,
        ((slicesOf slices ep.cluster fam).flatMap MirroredSlice.addresses).Perm
          (ep.ips.filter fun ip => familyOf ip = some fam).dedup) ∧
      (∀ slice ∈ slices, ∀ ip ∈ slice.addresses, (parseIP ip).isSome = true) ∧
      ∀ go' arrived, Shuffle ExportedEndpoint.Reordered arrived endpoints →
        planEndpointSlices go' importName namespace_ arrived = slices := by
  refine ⟨nodup_name_planEndpointSlices namespace_ go distinct short,
    sorted_planEndpointSlices namespace_ go distinct short, fun slice => slice_of_plan,
    fun ep mem => flatMap_slicesOf_perm namespace_ go distinct mem, ?_,
    fun go' _ => planEndpointSlices_reordered namespace_ go go' distinct short⟩
  intro slice mem ip inside
  exact (mem_addresses_planEndpointSlices.mp ⟨slice, mem, inside⟩).2

/-- The name of one cluster ends as the name of a slice of the other does. -/
def suffixedClusters : List ExportedEndpoint :=
  [⟨"b", .headless, [], ["10.0.0.1", "fd00::1", "10.0.0.1", "x"], 0⟩,
    ⟨"b-ipv4-0", .headless, [], ["10.0.0.1"], 0⟩]

theorem unhashed_suffixedClusters : Unhashed "db" suffixedClusters := by
  have each : ∀ fam ∈ [AddressType.ipv4, .ipv6], ∀ ep ∈ suffixedClusters,
      ∀ chunk ∈ chunks (addressesOfFamily ep.ips fam),
        (fullSliceName "db" ep.cluster fam chunk.1).length ≤ 253 := by decide
  intro ep mem fam
  exact each fam (by cases fam <;> decide) ep mem

theorem suffixedClusters_partitioned :
    (planEndpointSlices (.stable MirrorSite) (str "db") (str "prod") suffixedClusters).map
        MirroredSlice.name =
      [str "db-b-ipv4-0", str "db-b-ipv4-0-ipv4-0", str "db-b-ipv6-0"] ∧
    ∀ go' arrived, Shuffle ExportedEndpoint.Reordered arrived suffixedClusters →
      planEndpointSlices go' (str "db") (str "prod") arrived =
        planEndpointSlices (.stable MirrorSite) (str "db") (str "prod") suffixedClusters := by
  refine ⟨by decide, ?_⟩
  exact (planEndpointSlices_partitions (.stable MirrorSite) (str "db") (str "prod")
    suffixedClusters (by decide) unhashed_suffixedClusters).2.2.2.2.2

end DatawerxMesh.Dns
