import DatawerxMesh.Dns.Allocate
import DatawerxMesh.Dns.Naming

/-!
# The service import reconciler

`pkg/controllers/serviceimport_controller.go`, up to the write of the ServiceImport.  There is no
broker, so every cluster has to derive the same plans.
-/

namespace DatawerxMesh.Controllers

open Go Sorting DatawerxMesh.Dns List

/-- The range used when none is set. -/
def defaultClusterSetCIDR : Str := "241.0.0.0/8"

/-- `ServiceImportReconciler` without its client. -/
structure ServiceImportReconciler where
  clusterSetCIDR : Str
  clusterSetCIDR6 : Str

namespace ServiceImportReconciler

/-- The range of the ClusterSetIPs. -/
def cidr (r : ServiceImportReconciler) : Str :=
  if r.clusterSetCIDR = [] then defaultClusterSetCIDR else r.clusterSetCIDR

end ServiceImportReconciler

/-- An object as the planner reads it. -/
def endpointExportToExported (ee : EndpointExport) : ExportedService where
  namespace_ := ee.spec.serviceNamespace
  name := ee.spec.serviceName
  endpoint := {
    cluster := ee.spec.clusterID
    type := ee.spec.type
    ports := ee.spec.ports
    ips := ee.spec.ips
    exportTime := ee.spec.exportedAtUnix }

/-- The errors of `allocateVIPs`. -/
inductive VIPError where
  | v4 (error : AllocateError)
  | v6 (error : AllocateError)
  deriving DecidableEq

/-- Error texts of `allocateVIPs`. -/
def VIPError.text (quote : Str → Str) : VIPError → Str
  | v4 error => "allocating IPv4 ClusterSetIP: " ++ error.text quote
  | v6 error => "allocating IPv6 ClusterSetIP: " ++ error.text quote

/-- The services with an IPv6 backend. -/
def keysWithIPv6Backends (go : Runtime Site) (grouped : Grouped) : List ServiceKey :=
  (go.range .keysWithIPv6Backends grouped.keys).filter fun k =>
    (endpointsOf grouped k).any fun ep => ep.ips.any fun ip => containsByte ip 58

/-- The keys of a set, sorted. -/
def sortedKeySet (go : Runtime Site) (m : List ServiceKey) : List ServiceKey :=
  sortServiceKeys go (go.range .sortedKeySet m)

/-- The address of a key, if it is not empty. -/
def allocated (allocation : Allocation) (key : ServiceKey) : List Str :=
  (allocation.lookup key).toList.filter (· ≠ [])

namespace ServiceImportReconciler

/-- The addresses of one service. -/
def allocateVIPs (go : Runtime Site) (r : ServiceImportReconciler) (key : ServiceKey)
    (plan : ImportPlan) (keys : List ServiceKey) (grouped : Grouped) :
    Except VIPError (List Str) :=
  if plan.type ≠ .clusterSetIP then .ok []
  else
    match allocateClusterSetIPs go r.cidr keys with
    | .error error => .error (.v4 error)
    | .ok v4 =>
      let vips := allocated v4 key
      if r.clusterSetCIDR6 = [] then .ok vips
      else
        let v6Keys := keysWithIPv6Backends go grouped
        if key ∉ v6Keys then .ok vips
        else
          match allocateClusterSetIPs go r.clusterSetCIDR6 (sortedKeySet go v6Keys) with
          | .error error => .error (.v6 error)
          | .ok v6 => .ok (vips ++ allocated v6 key)

/-- What `Reconcile` derives for a key: nothing without exports, and else its plan with its virtual
addresses or the error that ends the call. -/
def derive (go : Runtime Site) (quote : Str → Str) (r : ServiceImportReconciler)
    (exports : List EndpointExport) (key : ServiceKey) :
    Option (ImportPlan × Except VIPError (List Str)) :=
  let (grouped, keys) := groupExports go (exports.map endpointExportToExported)
  (planServiceImport go quote (endpointsOf grouped key)).map fun plan =>
    (plan, r.allocateVIPs go key plan keys grouped)

end ServiceImportReconciler

section Agreement

variable (left_run right_run : Runtime Site) {left right : Grouped}

theorem keysWithIPv6Backends_perm (same : ∀ k, (endpointsOf left k).Perm (endpointsOf right k))
    (perm : left.keys.Perm right.keys) :
    (keysWithIPv6Backends left_run left).Perm (keysWithIPv6Backends right_run right) := by
  rw [keysWithIPv6Backends, keysWithIPv6Backends]
  simp only [(same _).any_eq]
  refine Perm.filter _ ?_
  exact ((left_run.range_perm _ _).trans perm).trans (right_run.range_perm _ _).symm

theorem mem_keys_of_mem_keysWithIPv6Backends {go : Runtime Site} {grouped : Grouped}
    {k : ServiceKey} (mem : k ∈ keysWithIPv6Backends go grouped) : k ∈ grouped.keys :=
  (go.range_perm _ _).mem_iff.mp (mem_filter.mp mem).1

theorem sortedKeySet_perm (go : Runtime Site) (m : List ServiceKey) : (sortedKeySet go m).Perm m :=
  (go.sortSlice_arranges _ lessKey_orders _).perm.trans (go.range_perm _ _)

theorem allocated_cases {key : ServiceKey} {run run' : Except AllocateError Allocation}
    (same : run.map (AList.lookup key) = run'.map (AList.lookup key)) :
    (∃ e, run = .error e ∧ run' = .error e) ∨
      ∃ out out', run = .ok out ∧ run' = .ok out' ∧ allocated out key = allocated out' key := by
  rcases run with e | out
  · rcases run' with e' | out'
    · exact .inl ⟨e, rfl, congrArg Except.error (Except.error.inj same).symm⟩
    · cases same
  · rcases run' with e' | out'
    · cases same
    · refine .inr ⟨out, out', rfl, rfl, ?_⟩
      rw [allocated, Except.ok.inj same, allocated]

theorem allocateVIPs_eq (r : ServiceImportReconciler) {key : ServiceKey} (plan : ImportPlan)
    {left_keys right_keys : List ServiceKey} (left_perm : left_keys.Perm left.keys)
    (right_perm : right_keys.Perm right.keys)
    (own : plan.type = .clusterSetIP → ∀ k ∈ left.keys, k.string = key.string → k = key)
    (same : ∀ k, (endpointsOf left k).Perm (endpointsOf right k))
    (perm : left.keys.Perm right.keys) :
    r.allocateVIPs left_run key plan left_keys left =
      r.allocateVIPs right_run key plan right_keys right := by
  rw [ServiceImportReconciler.allocateVIPs, ServiceImportReconciler.allocateVIPs]
  by_cases other : plan.type ≠ .clusterSetIP
  · rw [if_pos other, if_pos other]
  rw [if_neg other, if_neg other]
  have own := own (not_not.mp other)
  have v4 := lookup_allocateClusterSetIPs_eq left_run right_run r.cidr
    (fun k mem => own k (left_perm.mem_iff.mp mem))
    ((left_perm.trans perm).trans right_perm.symm)
  have v6_perm := keysWithIPv6Backends_perm left_run right_run same perm
  have v6 := lookup_allocateClusterSetIPs_eq left_run right_run r.clusterSetCIDR6
    (fun k mem => own k (mem_keys_of_mem_keysWithIPv6Backends
      ((sortedKeySet_perm left_run _).mem_iff.mp mem)))
    (((sortedKeySet_perm left_run _).trans v6_perm).trans (sortedKeySet_perm right_run _).symm)
  obtain ⟨e, left_eq, right_eq⟩ | ⟨out, out', left_eq, right_eq, v4_eq⟩ := allocated_cases v4
  · simp only [left_eq, right_eq]
  · obtain ⟨e, left6_eq, right6_eq⟩ | ⟨out6, out6', left6_eq, right6_eq, v6_eq⟩ :=
      allocated_cases v6
    · simp only [left_eq, right_eq, v4_eq, left6_eq, right6_eq, v6_perm.mem_iff]
    · simp only [left_eq, right_eq, v4_eq, left6_eq, right6_eq, v6_eq, v6_perm.mem_iff]

end Agreement

theorem ServiceImportReconciler.derive_eq_none {go : Runtime Site} {quote : Str → Str}
    {r : ServiceImportReconciler} {exports : List EndpointExport} {key : ServiceKey}
    (absent : ∀ ee ∈ exports, (endpointExportToExported ee).key ≠ key) :
    r.derive go quote exports key = none := by
  have empty : bucket (exports.map endpointExportToExported) key = [] := by
    rw [bucket, map_eq_nil_iff, filter_eq_nil_iff]
    intro e mem
    obtain ⟨ee, ee_mem, rfl⟩ := mem_map.mp mem
    simpa using absent ee ee_mem
  have sorted : ∀ {site : Site} {less : ExportedEndpoint → ExportedEndpoint → Bool}
      {β : Type} {field : ExportedEndpoint → β}, Orders less field →
      go.sortSlice site less [] = [] := fun orders =>
    perm_nil.mp (go.sortSlice_arranges _ orders []).perm
  have nothing : planServiceImport go quote [] = none := by
    rw [planServiceImport, sorted lessExport_orders]
  rw [derive]
  dsimp only
  rw [endpointsOf_groupExports, empty, sorted lessCluster_orders, nothing]
  rfl

/-- No other service with exports has the text of a key. -/
def OwnText (exports : List EndpointExport) (key : ServiceKey) : Prop :=
  ∀ ee ∈ exports, (endpointExportToExported ee).key.string = key.string →
    (endpointExportToExported ee).key = key

/-- What `Reconcile` derives does not depend on the order in which exports are listed and sorted. -/
theorem ServiceImportReconciler.derive_eq (left_run right_run : Runtime Site) (quote : Str → Str)
    (r : ServiceImportReconciler) {left right : List EndpointExport} (perm : left.Perm right)
    {key : ServiceKey} (untied : Untied (bucket (left.map endpointExportToExported) key))
    (own : ∀ plan vips, r.derive left_run quote left key = some (plan, vips) →
      plan.type = .clusterSetIP → OwnText left key) :
    r.derive left_run quote left key = r.derive right_run quote right key := by
  have exported := perm.map endpointExportToExported
  have same := endpointsOf_groupExports_perm left_run right_run exported
  have in_bucket : ∀ e ∈ endpointsOf (groupExports left_run (left.map endpointExportToExported)).1
      key, e ∈ bucket (left.map endpointExportToExported) key := by
    intro e mem
    rw [endpointsOf_groupExports] at mem
    exact (left_run.sortSlice_arranges _ lessCluster_orders _).perm.mem_iff.mp mem
  have plans := planServiceImport_eq left_run right_run quote (fun a a_mem b b_mem =>
    untied a (in_bucket a a_mem) b (in_bucket b b_mem)) (same key)
  simp only [ServiceImportReconciler.derive] at own ⊢
  rw [← plans]
  cases planned : planServiceImport left_run quote
    (endpointsOf (groupExports left_run (left.map endpointExportToExported)).1 key) with
  | none => rfl
  | some plan =>
    rw [planned] at own
    refine congrArg (fun vips => some (plan, vips)) (allocateVIPs_eq left_run right_run r plan
      (groupExports_keys_perm left_run _) (groupExports_keys_perm right_run _) ?_ same
      (groupExports_map_keys_perm left_run right_run exported))
    intro type_eq k mem text_eq
    obtain ⟨e, e_mem, rfl⟩ := (mem_groupExports left_run _).mp (AList.mem_keys.mpr mem)
    obtain ⟨ee, ee_mem, rfl⟩ := mem_map.mp e_mem
    exact own plan _ rfl type_eq ee ee_mem text_eq

/-- Clusters that know the same exports derive the same plan and the same virtual addresses for
every service, or fail with the same error, in whatever order they list and sort them. -/
theorem imports_agree (left_run right_run : Runtime Site) (quote : Str → Str)
    (r : ServiceImportReconciler) {left right : List EndpointExport} (perm : left.Perm right)
    (one : OnePerCluster (left.map endpointExportToExported))
    (no_slash : ∀ ee ∈ left, 47 ∉ ee.spec.serviceNamespace) (key : ServiceKey) :
    r.derive left_run quote left key = r.derive right_run quote right key := by
  by_cases exported : ∃ ee ∈ left, (endpointExportToExported ee).key = key
  · obtain ⟨known, known_mem, rfl⟩ := exported
    refine ServiceImportReconciler.derive_eq left_run right_run quote r perm ?_ ?_
    · intro a a_mem b b_mem _ cluster_eq
      rw [one.bucket_injOn _ a_mem b_mem cluster_eq]
      exact ⟨rfl, rfl⟩
    · have separate : ∀ k ∈ {k | ∃ ee ∈ left, (endpointExportToExported ee).key = k},
          47 ∉ k.namespace_ := by
        rintro k ⟨ee, listed, rfl⟩
        exact no_slash ee listed
      exact fun _ _ _ _ ee listed =>
        ServiceKey.string_injOn separate ⟨ee, listed, rfl⟩ ⟨known, known_mem, rfl⟩
  · rw [ServiceImportReconciler.derive_eq_none fun ee listed same => exported ⟨ee, listed, same⟩,
      ServiceImportReconciler.derive_eq_none fun ee listed same =>
        exported ⟨ee, perm.mem_iff.mpr listed, same⟩]

/-- An export of the web service by a cluster. -/
def webExportBy (clusterID portName : Str) (exportedAtUnix : Int) : EndpointExport where
  namespace_ := "prod"
  name := "web-" ++ clusterID
  spec := {
    clusterID, exportedAtUnix
    serviceNamespace := "prod"
    serviceName := "web"
    type := .clusterSetIP
    ports := [⟨portName, [], none, 80⟩]
    ips := ["10.96.0.7", "fd00::7"] }

theorem imports_agree_web :
    let exports :=
      [webExportBy "cluster-a" "http" 7, webExportBy "cluster-b" "www" 5]
    let r : ServiceImportReconciler := ⟨[], "fd00:64::/64"⟩
    r.derive (.stable Site) id exports ⟨"prod", "web"⟩ =
      r.derive (.stable Site) id exports.reverse ⟨"prod", "web"⟩ :=
  imports_agree _ _ id _ (reverse_perm _).symm (by unfold OnePerCluster; decide +kernel)
    (by decide +kernel) _

/-- The spec that a plan asks for. -/
def importSpec (plan : ImportPlan) (clusterSetIPs : List Str) : ServiceImportSpec where
  type := plan.type
  ports := plan.ports
  ips := if plan.type = .clusterSetIP ∧ clusterSetIPs ≠ [] then clusterSetIPs else []

/-- The key of an import. -/
def importKey (si : ServiceImport) : ServiceKey := ⟨si.namespace_, si.name⟩

/-- An import is created or overwritten. -/
def applyServiceImport (key : ServiceKey) (plan : ImportPlan) (clusterSetIPs : List Str)
    (imports : List ServiceImport) : List ServiceImport :=
  let si : ServiceImport := ⟨key.namespace_, key.name, importSpec plan clusterSetIPs, plan.clusters⟩
  if imports.any fun other => importKey other = key then
    imports.map fun other => if importKey other = key then si else other
  else imports ++ [si]

/-- An import is deleted. -/
def deleteServiceImport (key : ServiceKey) (imports : List ServiceImport) : List ServiceImport :=
  imports.filter fun other => importKey other ≠ key

/-- `Reconcile`, as far as the imports of a cluster are concerned. -/
def ServiceImportReconciler.reconcile (go : Runtime Site) (quote : Str → Str)
    (r : ServiceImportReconciler) (exports : List EndpointExport) (key : ServiceKey)
    (imports : List ServiceImport) : Except VIPError (List ServiceImport) :=
  match r.derive go quote exports key with
  | none => .ok (deleteServiceImport key imports)
  | some (_, .error error) => .error error
  | some (plan, .ok vips) => .ok (applyServiceImport key plan vips imports)

/-- Every reconcile succeeds and leaves the imports as they are. -/
structure ServiceImportReconciler.Reconciled (go : Runtime Site) (quote : Str → Str)
    (r : ServiceImportReconciler) (exports : List EndpointExport)
    (imports : List ServiceImport) : Prop where
  distinct : (imports.map importKey).Nodup
  settled : ∀ key, r.reconcile go quote exports key imports = .ok imports

section Reconciled

variable {go : Runtime Site} {quote : Str → Str} {r : ServiceImportReconciler}
  {exports : List EndpointExport} {imports : List ServiceImport}

theorem ServiceImportReconciler.Reconciled.of_exported (distinct : (imports.map importKey).Nodup)
    (exported : ∀ ee ∈ exports,
      r.reconcile go quote exports (endpointExportToExported ee).key imports = .ok imports)
    (no_other : ∀ si ∈ imports, ∃ ee ∈ exports, (endpointExportToExported ee).key = importKey si) :
    r.Reconciled go quote exports imports := by
  refine ⟨distinct, fun key => ?_⟩
  by_cases some_export : ∃ ee ∈ exports, (endpointExportToExported ee).key = key
  · obtain ⟨ee, ee_mem, rfl⟩ := some_export
    exact exported ee ee_mem
  · have absent : ∀ ee ∈ exports, (endpointExportToExported ee).key ≠ key :=
      fun ee ee_mem same => some_export ⟨ee, ee_mem, same⟩
    rw [reconcile, derive_eq_none absent]
    refine congrArg Except.ok (filter_eq_self.mpr fun si mem => ?_)
    obtain ⟨ee, ee_mem, same⟩ := no_other si mem
    simpa [← same] using absent ee ee_mem

end Reconciled

end DatawerxMesh.Controllers
