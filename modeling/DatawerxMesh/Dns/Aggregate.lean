import DatawerxMesh.Api.Resources
import DatawerxMesh.Go.NetText
import DatawerxMesh.Go.Runtime
import Mathlib.Data.List.Dedup
import Mathlib.Data.List.AList

/-!
# Exports and their groups

`pkg/dns/export.go`, `endpoints.go` and `aggregate.go`: what a cluster contributes to a service, and
the exports of all clusters in one bucket for each service, whatever their order.
-/

namespace DatawerxMesh.Dns

open Go Sorting List

/-- One cluster's part in a service. -/
structure ExportedEndpoint where
  cluster : Str
  type : ServiceImportType
  ports : List ServicePort
  ips : List Str
  exportTime : Int
  deriving DecidableEq

/-- The part of a Service that is read.  Its ports have the fields of an exported port. -/
structure Service where
  namespace_ : Str
  name : Str
  clusterIP : Str
  clusterIPs : List Str
  ports : List ServicePort
  deriving DecidableEq

/-- An endpoint of an EndpointSlice with its conditions. -/
structure Endpoint where
  addresses : List Str
  ready : Option Bool
  terminating : Option Bool
  deriving DecidableEq

/-- The part of an EndpointSlice that is read. -/
structure EndpointSlice where
  endpoints : List Endpoint
  deriving DecidableEq

/-- The cluster address of a headless Service. -/
def clusterIPNone : Str := "None"

/-- A Service without a cluster address. -/
def serviceIsHeadless (svc : Service) : Bool := svc.clusterIP == clusterIPNone

/-- The usable cluster addresses. -/
def clusterIPs (svc : Service) : List Str :=
  let candidates :=
    if svc.clusterIPs = [] ∧ svc.clusterIP ≠ [] then [svc.clusterIP] else svc.clusterIPs
  candidates.filter fun ip => ip ≠ [] ∧ ip ≠ clusterIPNone

/-- The contribution of a Service. -/
def buildExportedEndpoint (clusterID : Str) (svc : Service) : ExportedEndpoint where
  cluster := clusterID
  type := if serviceIsHeadless svc then .headless else .clusterSetIP
  ports := svc.ports
  ips := if serviceIsHeadless svc then [] else clusterIPs svc
  exportTime := 0

/-- An endpoint that takes traffic. -/
def endpointServing (ep : Endpoint) : Bool :=
  ep.ready != some false && ep.terminating != some true

/-- The serving addresses, each once. -/
def readyEndpointIPs (slices : List EndpointSlice) : List Str :=
  let serving := (slices.flatMap EndpointSlice.endpoints).filter endpointServing
  sortStrings ((serving.flatMap Endpoint.addresses).filter (· ≠ [])).dedup

/-- The functions of service discovery that sort a slice or range over a map. -/
inductive Site where
  | groupExports
  | sortServiceKeys
  | planServiceImport
  | sortedPorts
  | sortedIPs
  | keysWithIPv6Backends
  | sortedKeySet

/-- A service of the cluster set. -/
structure ServiceKey where
  namespace_ : Str
  name : Str
  deriving DecidableEq

/-- The text of a key. -/
def ServiceKey.string (k : ServiceKey) : Str := k.namespace_ ++ "/" ++ k.name

/-- A contribution to a named service. -/
structure ExportedService where
  namespace_ : Str
  name : Str
  endpoint : ExportedEndpoint

/-- The service it belongs to. -/
def ExportedService.key (e : ExportedService) : ServiceKey := ⟨e.namespace_, e.name⟩

/-- `map[ServiceKey][]ExportedEndpoint`. -/
abbrev Grouped := AList fun _ : ServiceKey => List ExportedEndpoint

/-- `grouped[k]`. -/
def endpointsOf (grouped : Grouped) (k : ServiceKey) : List ExportedEndpoint :=
  (grouped.lookup k).getD []

/-- `grouped[k] = append(grouped[k], e.Endpoint)`. -/
def addExport (grouped : Grouped) (e : ExportedService) : Grouped :=
  grouped.insert e.key (endpointsOf grouped e.key ++ [e.endpoint])

/-- The comparison of endpoints in `GroupExports`. -/
def lessCluster (a b : ExportedEndpoint) : Bool := less a.cluster b.cluster

/-- The order of keys. -/
def lessKey (a b : ServiceKey) : Bool := less a.string b.string

/-- The endpoints of one key are sorted in place. -/
def sortBucket (go : Runtime Site) (grouped : Grouped) (k : ServiceKey) : Grouped :=
  grouped.insert k (go.sortSlice .groupExports lessCluster (endpointsOf grouped k))

/-- The groups and their keys. -/
def groupExports (go : Runtime Site) (exports : List ExportedService) :
    Grouped × List ServiceKey :=
  let grouped := exports.foldl addExport ∅
  let keys := go.range .groupExports grouped.keys
  (keys.foldl (sortBucket go) grouped, go.sortSlice .groupExports lessKey keys)

/-- The keys by their texts. -/
def sortServiceKeys (go : Runtime Site) (keys : List ServiceKey) : List ServiceKey :=
  go.sortSlice .sortServiceKeys lessKey keys

theorem lessCluster_orders : Orders lessCluster ExportedEndpoint.cluster :=
  Orders.onField less_orders

theorem lessKey_orders : Orders lessKey ServiceKey.string :=
  Orders.onField less_orders

theorem ServiceKey.string_injOn {keys : Set ServiceKey}
    (no_slash : ∀ k ∈ keys, 47 ∉ k.namespace_) : Set.InjOn ServiceKey.string keys := by
  intro left left_mem right right_mem same
  have split : ∀ k ∈ keys, cut 47 k.string = some (k.namespace_, k.name) := by
    intro k mem
    have slash : k.string = k.namespace_ ++ 47 :: k.name := by
      rw [ServiceKey.string, append_assoc]
      rfl
    rw [slash]
    exact cut_append 47 _ _ (no_slash k mem)
  have both := (split left left_mem).symm.trans ((congrArg (cut 47) same).trans
    (split right right_mem))
  obtain ⟨left_ns, left_name⟩ := left
  obtain ⟨right_ns, right_name⟩ := right
  simpa using both

/-- The endpoints of one service, in order of arrival. -/
def bucket (exports : List ExportedService) (k : ServiceKey) : List ExportedEndpoint :=
  (exports.filter fun e => e.key = k).map ExportedService.endpoint

section Buckets

variable {go : Runtime Site} {grouped : Grouped} {exports : List ExportedService}
  {keys : List ServiceKey} {k : ServiceKey}

theorem endpointsOf_insert (grouped : Grouped) (k other : ServiceKey)
    (endpoints : List ExportedEndpoint) :
    endpointsOf (grouped.insert k endpoints) other =
      if other = k then endpoints else endpointsOf grouped other := by
  rw [endpointsOf]
  split
  case isTrue same => rw [same, AList.lookup_insert, Option.getD_some]
  case isFalse differs => rw [AList.lookup_insert_ne differs, endpointsOf]

theorem endpointsOf_collect :
    endpointsOf (exports.foldl addExport grouped) k =
      endpointsOf grouped k ++ bucket exports k := by
  induction exports generalizing grouped with
  | nil => simp [bucket]
  | cons e exports ih =>
    rw [foldl_cons, ih, addExport, endpointsOf_insert, bucket, bucket, filter_cons]
    by_cases same : e.key = k
    · rw [if_pos same.symm, if_pos (by simpa using same), same, map_cons,
        append_assoc, singleton_append]
    · rw [if_neg (Ne.symm same), if_neg (by simpa using same)]

theorem mem_collect :
    k ∈ exports.foldl addExport grouped ↔ k ∈ grouped ∨ ∃ e ∈ exports, e.key = k := by
  induction exports generalizing grouped with
  | nil => simp
  | cons e exports ih =>
    rw [foldl_cons, ih, addExport, AList.mem_insert]
    simp only [mem_cons, exists_eq_or_imp]
    tauto

theorem endpointsOf_sortBuckets (nodup : keys.Nodup) :
    endpointsOf (keys.foldl (sortBucket go) grouped) k =
      if k ∈ keys then go.sortSlice .groupExports lessCluster (endpointsOf grouped k)
      else endpointsOf grouped k := by
  induction keys generalizing grouped with
  | nil => simp
  | cons first keys ih =>
    obtain ⟨fresh, nodup⟩ := nodup_cons.mp nodup
    rw [foldl_cons, ih nodup, sortBucket, endpointsOf_insert]
    by_cases same : k = first
    · rw [if_neg (same ▸ fresh), if_pos same, if_pos (mem_cons.mpr (Or.inl same)), same]
    · rw [if_neg same]
      simp only [mem_cons, same, false_or]

theorem mem_sortBuckets :
    k ∈ keys.foldl (sortBucket go) grouped ↔ k ∈ grouped ∨ k ∈ keys := by
  induction keys generalizing grouped with
  | nil => simp
  | cons first keys ih =>
    rw [foldl_cons, ih, sortBucket, AList.mem_insert, mem_cons]
    tauto

end Buckets

section GroupExports

variable (go : Runtime Site) (exports : List ExportedService)

theorem endpointsOf_groupExports (k : ServiceKey) :
    endpointsOf (groupExports go exports).1 k =
      go.sortSlice .groupExports lessCluster (bucket exports k) := by
  have collected : endpointsOf (exports.foldl addExport ∅) k = bucket exports k := by
    rw [endpointsOf_collect]
    rfl
  have perm := go.range_perm .groupExports (exports.foldl addExport ∅).keys
  rw [groupExports, endpointsOf_sortBuckets (perm.nodup_iff.mpr (AList.keys_nodup _)), collected]
  split
  case isTrue => rfl
  case isFalse absent =>
    have missing : k ∉ exports.foldl addExport ∅ := fun present =>
      absent (perm.mem_iff.mpr (AList.mem_keys.mp present))
    have empty : bucket exports k = [] := by
      rw [← collected, endpointsOf, AList.lookup_eq_none.mpr missing, Option.getD_none]
    have sorted := go.sortSlice_arranges .groupExports lessCluster_orders (bucket exports k)
    rw [empty] at sorted ⊢
    exact (perm_nil.mp sorted.perm).symm

theorem mem_groupExports {k : ServiceKey} :
    k ∈ (groupExports go exports).1 ↔ ∃ e ∈ exports, e.key = k := by
  have perm := go.range_perm .groupExports (exports.foldl addExport ∅).keys
  rw [groupExports, mem_sortBuckets, perm.mem_iff, ← AList.mem_keys, mem_collect]
  simp

theorem groupExports_keys_perm :
    (groupExports go exports).2.Perm (groupExports go exports).1.keys := by
  have range_perm := go.range_perm .groupExports (exports.foldl addExport ∅).keys
  have sort_perm := (go.sortSlice_arranges .groupExports lessKey_orders
    (go.range .groupExports (exports.foldl addExport ∅).keys)).perm
  refine sort_perm.trans (range_perm.trans ?_)
  refine (perm_ext_iff_of_nodup (AList.keys_nodup _) (AList.keys_nodup _)).mpr fun k => ?_
  rw [← AList.mem_keys, ← AList.mem_keys, mem_groupExports, mem_collect]
  simp

end GroupExports

/-- No cluster exports a service twice. -/
def OnePerCluster (exports : List ExportedService) : Prop :=
  (exports.map fun e => (e.key, e.endpoint.cluster)).Nodup

theorem OnePerCluster.bucket_injOn {exports : List ExportedService} (one : OnePerCluster exports)
    (k : ServiceKey) :
    Set.InjOn ExportedEndpoint.cluster {endpoint | endpoint ∈ bucket exports k} := by
  intro left left_mem right right_mem same
  obtain ⟨first, first_mem, rfl⟩ := mem_map.mp left_mem
  obtain ⟨second, second_mem, rfl⟩ := mem_map.mp right_mem
  obtain ⟨first_mem, first_key⟩ := mem_filter.mp first_mem
  obtain ⟨second_mem, second_key⟩ := mem_filter.mp second_mem
  have both := inj_on_of_nodup_map one first_mem second_mem
    (Prod.ext ((of_decide_eq_true first_key).trans (of_decide_eq_true second_key).symm) same)
  rw [both]

section Agreement

variable (left_run right_run : Runtime Site) {left right : List ExportedService}

theorem endpointsOf_groupExports_perm (perm : left.Perm right) (k : ServiceKey) :
    (endpointsOf (groupExports left_run left).1 k).Perm
      (endpointsOf (groupExports right_run right).1 k) := by
  rw [endpointsOf_groupExports, endpointsOf_groupExports]
  exact ((left_run.sortSlice_arranges _ lessCluster_orders _).perm.trans
    ((perm.filter _).map _)).trans (right_run.sortSlice_arranges _ lessCluster_orders _).perm.symm

theorem groupExports_map_keys_perm (perm : left.Perm right) :
    (groupExports left_run left).1.keys.Perm (groupExports right_run right).1.keys := by
  refine (perm_ext_iff_of_nodup (AList.keys_nodup _) (AList.keys_nodup _)).mpr fun k => ?_
  rw [← AList.mem_keys, ← AList.mem_keys, mem_groupExports, mem_groupExports]
  simp only [perm.mem_iff]

end Agreement

end DatawerxMesh.Dns
