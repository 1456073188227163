import DatawerxMesh.Controllers.ServiceImport
import DatawerxMesh.Dns.Mirror
import DatawerxMesh.Dnsserver.Server

/-!
# Three views of a headless import

The addresses of a headless import are derived from the exports three times: by the plan, by the
mirrored endpoint slices and by the zone server.
-/

namespace DatawerxMesh.Controllers

open Go Sorting DatawerxMesh.Dns DatawerxMesh.Dnsserver List

/-- The slices that `Reconcile` wants: those of all endpoints of a headless service. -/
def ServiceImportReconciler.desiredSlices (go : Runtime Site) (mirror : Runtime MirrorSite)
    (quote : Str → Str) (r : ServiceImportReconciler) (exports : List EndpointExport)
    (key : ServiceKey) : List MirroredSlice :=
  match r.derive go quote exports key with
  | some (plan, .ok _) =>
    if plan.type = .headless then
      planEndpointSlices mirror key.name key.namespace_
        (endpointsOf (groupExports go (exports.map endpointExportToExported)).1 key)
    else []
  | _ => []

/-- An export of the service with this key. -/
def ExportsService (key : ServiceKey) (ee : EndpointExport) : Prop :=
  ee.spec.serviceNamespace = key.namespace_ ∧ ee.spec.serviceName = key.name

/-- Some export of the service with the property has the address. -/
def Carries (exports : List EndpointExport) (key : ServiceKey) (property : EndpointExport → Prop)
    (ip : Str) : Prop :=
  ∃ ee ∈ exports, ExportsService key ee ∧ property ee ∧ ip ∈ ee.spec.ips

variable {exports : List EndpointExport} {key : ServiceKey}

theorem key_eq_iff_exports {ee : EndpointExport} :
    (endpointExportToExported ee).key = key ↔ ExportsService key ee := by
  cases key
  simp [ExportedService.key, endpointExportToExported, ExportsService]

theorem mem_endpoints_iff (go : Runtime Site) {endpoint : ExportedEndpoint} :
    endpoint ∈ endpointsOf (groupExports go (exports.map endpointExportToExported)).1 key ↔
      ∃ ee ∈ exports, ExportsService key ee ∧
        endpoint = (endpointExportToExported ee).endpoint := by
  rw [endpointsOf_groupExports,
    (go.sortSlice_arranges _ lessCluster_orders _).perm.mem_iff, bucket, mem_map]
  constructor
  · rintro ⟨exported, mem, rfl⟩
    obtain ⟨in_map, same⟩ := mem_filter.mp mem
    obtain ⟨ee, listed, rfl⟩ := mem_map.mp in_map
    exact ⟨ee, listed, key_eq_iff_exports.mp (of_decide_eq_true same), rfl⟩
  · rintro ⟨ee, listed, own, rfl⟩
    exact ⟨_, mem_filter.mpr ⟨mem_map_of_mem listed,
      decide_eq_true (key_eq_iff_exports.mpr own)⟩, rfl⟩

theorem mem_headlessIPs {ε : Type} (imports : List ServiceImport) (ip : Str) :
    (∃ ips, (Reader.of ε imports exports).headlessIPs key.namespace_ key.name = .ok ips ∧
      ip ∈ ips) ↔
      ip ≠ [] ∧ Carries exports key (fun ee => ee.namespace_ = key.namespace_) ip := by
  have answered : (Reader.of ε imports exports).headlessIPs key.namespace_ key.name = .ok
      (sortStrings ((((exports.filter fun e => e.namespace_ == key.namespace_).filter fun item =>
        item.spec.serviceNamespace == key.namespace_ && item.spec.serviceName == key.name).flatMap
          fun item => item.spec.ips).filter (· ≠ [])).dedup) := rfl
  rw [answered]
  simp only [Except.ok.injEq, exists_eq_left', sortStrings, mem_sort, mem_dedup,
    mem_filter, mem_flatMap, Bool.and_eq_true, beq_iff_eq, decide_eq_true_eq, Carries,
    ExportsService]
  constructor
  · rintro ⟨⟨ee, ⟨⟨listed, placed⟩, own⟩, carried⟩, some_text⟩
    exact ⟨some_text, ee, listed, own, placed, carried⟩
  · rintro ⟨some_text, ee, listed, own, placed, carried⟩
    exact ⟨⟨ee, ⟨⟨listed, placed⟩, own⟩, carried⟩, some_text⟩

section Views

variable {go : Runtime Site} {quote : Str → Str} {r : ServiceImportReconciler} {plan : ImportPlan}
  {vips : Except VIPError (List Str)}

theorem allocateVIPs_headless (go : Runtime Site) (r : ServiceImportReconciler) {plan : ImportPlan}
    (headless : plan.type = .headless) (keys : List ServiceKey) (grouped : Grouped) :
    r.allocateVIPs go key plan keys grouped = .ok [] := by
  rw [ServiceImportReconciler.allocateVIPs, if_pos (by simp [headless])]

variable (derived : r.derive go quote exports key = some (plan, vips))
  (headless : plan.type = .headless)

include derived headless

theorem mem_aggregatedIPs_iff (ip : Str) :
    ip ∈ plan.aggregatedIPs ↔ Carries exports key (fun ee => ee.spec.type = .headless) ip := by
  obtain ⟨planned_plan, planned, same⟩ := Option.map_eq_some_iff.mp derived
  obtain ⟨rfl, -⟩ := Prod.mk.inj same
  rw [mem_aggregatedIPs_of_plan planned, headless]
  constructor
  · rintro ⟨endpoint, mem, type_eq, carried⟩
    obtain ⟨ee, listed, own, rfl⟩ := (mem_endpoints_iff go).mp mem
    exact ⟨ee, listed, own, type_eq, carried⟩
  · rintro ⟨ee, listed, own, type_eq, carried⟩
    exact ⟨_, (mem_endpoints_iff go).mpr ⟨ee, listed, own, rfl⟩, type_eq, carried⟩

theorem mem_desiredSlices_iff (mirror : Runtime MirrorSite) (ip : Str) :
    (∃ slice ∈ r.desiredSlices go mirror quote exports key, ip ∈ slice.addresses) ↔
      Carries exports key (fun _ => True) ip ∧ (parseIP ip).isSome = true := by
  obtain ⟨planned_plan, planned, same⟩ := Option.map_eq_some_iff.mp derived
  obtain ⟨rfl, vips_eq⟩ := Prod.mk.inj same
  rw [allocateVIPs_headless go r headless] at vips_eq
  rw [ServiceImportReconciler.desiredSlices, derived, ← vips_eq]
  dsimp only
  rw [if_pos headless, mem_addresses_planEndpointSlices]
  refine and_congr_left fun _ => ?_
  constructor
  · rintro ⟨endpoint, mem, carried⟩
    obtain ⟨ee, listed, own, rfl⟩ := (mem_endpoints_iff go).mp mem
    exact ⟨ee, listed, own, trivial, carried⟩
  · rintro ⟨ee, listed, own, -, carried⟩
    exact ⟨_, (mem_endpoints_iff go).mpr ⟨ee, listed, own, rfl⟩, carried⟩

end Views

/-- Zone server and mirrored slices have the addresses of the plan that can be read. -/
def HeadlessViewsAgree (go : Runtime Site) (mirror : Runtime MirrorSite) (quote : Str → Str)
    (r : ServiceImportReconciler) (imports : List ServiceImport) (exports : List EndpointExport)
    (key : ServiceKey) (plan : ImportPlan) : Prop :=
  ∀ ip,
    ((∃ ips, (Reader.of Unit imports exports).headlessIPs key.namespace_ key.name = .ok ips ∧
      ip ∈ ips) ↔ ip ∈ plan.aggregatedIPs ∧ (parseIP ip).isSome = true) ∧
    ((∃ slice ∈ r.desiredSlices go mirror quote exports key, ip ∈ slice.addresses) ↔
      ip ∈ plan.aggregatedIPs ∧ (parseIP ip).isSome = true)

/-- The exports of a service leave no room between the three views. -/
structure ConsistentExports (exports : List EndpointExport) (key : ServiceKey) : Prop where
  /-- A readable address of a rejected export is also one of a headless export. -/
  rejected : ∀ ip, (parseIP ip).isSome = true →
    Carries exports key (fun ee => ee.spec.type ≠ .headless) ip →
      Carries exports key (fun ee => ee.spec.type = .headless) ip
  /-- The texts of export objects in the namespace of the service can be read. -/
  readable : ∀ ip, ip ≠ [] → Carries exports key (fun ee => ee.namespace_ = key.namespace_) ip →
    (parseIP ip).isSome = true
  /-- A readable address of a headless export is one of an export object in the namespace. -/
  placed : ∀ ip, (parseIP ip).isSome = true →
    Carries exports key (fun ee => ee.spec.type = .headless) ip →
      Carries exports key (fun ee => ee.namespace_ = key.namespace_) ip

theorem Carries.mono {property weaker : EndpointExport → Prop} {ip : Str}
    (carries : Carries exports key property ip) (implies : ∀ ee, property ee → weaker ee) :
    Carries exports key weaker ip := by
  obtain ⟨ee, listed, own, holds, carried⟩ := carries
  exact ⟨ee, listed, own, implies ee holds, carried⟩

theorem Carries.headless_or_rejected {property : EndpointExport → Prop} {ip : Str}
    (carries : Carries exports key property ip) :
    Carries exports key (fun ee => ee.spec.type = .headless) ip ∨
      Carries exports key (fun ee => ee.spec.type ≠ .headless) ip := by
  obtain ⟨ee, listed, own, -, carried⟩ := carries
  by_cases headless : ee.spec.type = .headless
  · exact .inl ⟨ee, listed, own, headless, carried⟩
  · exact .inr ⟨ee, listed, own, headless, carried⟩

/-- The three views of a headless import agree exactly when the exports are consistent. -/
theorem headless_views_agree_iff (go : Runtime Site) (mirror : Runtime MirrorSite)
    (quote : Str → Str) (r : ServiceImportReconciler) (imports : List ServiceImport)
    (exports : List EndpointExport) (key : ServiceKey) (plan : ImportPlan)
    (vips : Except VIPError (List Str))
    (derived : r.derive go quote exports key = some (plan, vips))
    (headless : plan.type = .headless) :
    HeadlessViewsAgree go mirror quote r imports exports key plan ↔
      ConsistentExports exports key := by
  have unreadable : (parseIP []).isSome ≠ true := by decide +kernel
  simp only [HeadlessViewsAgree, mem_headlessIPs, mem_desiredSlices_iff derived headless mirror,
    mem_aggregatedIPs_iff derived headless]
  constructor
  · intro agree
    refine ⟨fun ip valid rejected => ?_, fun ip some_text placed => ?_, fun ip valid carried => ?_⟩
    · exact ((agree ip).2.mp ⟨rejected.mono fun _ _ => trivial, valid⟩).1
    · exact ((agree ip).1.mp ⟨some_text, placed⟩).2
    · exact ((agree ip).1.mpr ⟨carried, valid⟩).2
  · rintro ⟨rejected, readable, placed⟩ ip
    have accepted : ∀ {property}, Carries exports key property ip → (parseIP ip).isSome = true →
        Carries exports key (fun ee => ee.spec.type = .headless) ip :=
      fun carries valid => carries.headless_or_rejected.elim id (rejected ip valid)
    constructor
    · constructor
      · rintro ⟨some_text, carried⟩
        have valid := readable ip some_text carried
        exact ⟨accepted carried valid, valid⟩
      · rintro ⟨carried, valid⟩
        refine ⟨?_, placed ip valid carried⟩
        rintro rfl
        exact unreadable valid
    · constructor
      · rintro ⟨carried, valid⟩
        exact ⟨accepted carried valid, valid⟩
      · rintro ⟨carried, valid⟩
        exact ⟨carried.mono fun _ _ => trivial, valid⟩

/-- An export of the database by a cluster. -/
def dbExportBy (clusterID : Str) (exportedAtUnix : Int) (type : ServiceImportType) (ip : Str) :
    EndpointExport where
  namespace_ := "prod"
  name := "db-" ++ clusterID
  spec := {
    clusterID, exportedAtUnix, type
    serviceNamespace := "prod"
    serviceName := "db"
    ports := [⟨"sql", [], none, 5432⟩]
    ips := [ip] }

/-- The import planned for the database. -/
def dbPlan (exports : List EndpointExport) : Option ImportPlan :=
  ((ServiceImportReconciler.mk [] []).derive (.stable Site) id exports
    ⟨"prod", "db"⟩).map Prod.fst

theorem headless_views_agree_two_clusters :
    let exports := [dbExportBy "cluster-a" 5 .headless "10.1.0.5",
      dbExportBy "cluster-b" 7 .headless "10.2.0.5"]
    ∃ plan, dbPlan exports = some plan ∧ plan.type = .headless ∧
      (HeadlessViewsAgree (.stable Site) (.stable MirrorSite) id ⟨[], []⟩ [] exports
        ⟨"prod", "db"⟩ plan ↔ ConsistentExports exports ⟨"prod", "db"⟩) := by
  intro exports
  have planned : (dbPlan exports).map ImportPlan.type = some .headless := by decide +kernel
  obtain ⟨plan, plan_eq, headless⟩ := Option.map_eq_some_iff.mp planned
  obtain ⟨⟨same, vips⟩, derived, rfl⟩ := Option.map_eq_some_iff.mp plan_eq
  exact ⟨same, plan_eq, headless,
    headless_views_agree_iff _ _ id _ [] exports _ same vips derived headless⟩

/-- The oldest export is headless; the other one is rejected for its type. -/
def rejectedExports : List EndpointExport :=
  [dbExportBy "cluster-a" 5 .headless "10.1.0.5",
    dbExportBy "cluster-b" 7 .clusterSetIP "10.96.0.7"]

/-- The zone server and the mirrored slices have the address of the rejected export too. -/
theorem rejected_address_served :
    ((dbPlan rejectedExports).map (fun plan => (plan.type, plan.aggregatedIPs)) =
        some (.headless, [str "10.1.0.5"]) ∧
      (Reader.of Unit [] rejectedExports).headlessIPs "prod" "db" =
        .ok ["10.1.0.5", "10.96.0.7"] ∧
      ((ServiceImportReconciler.mk [] []).desiredSlices (.stable Site) (.stable MirrorSite) id
        rejectedExports ⟨"prod", "db"⟩).map MirroredSlice.addresses =
          [[str "10.1.0.5"], [str "10.96.0.7"]]) ∧
    ∃ plan, dbPlan rejectedExports = some plan ∧
      ¬ HeadlessViewsAgree (.stable Site) (.stable MirrorSite) id ⟨[], []⟩ [] rejectedExports
        ⟨"prod", "db"⟩ plan := by
  have served : (Reader.of Unit [] rejectedExports).headlessIPs "prod" "db" =
      .ok ["10.1.0.5", "10.96.0.7"] := by decide +kernel
  have planned : (dbPlan rejectedExports).map (fun plan => (plan.type, plan.aggregatedIPs)) =
      some (.headless, [str "10.1.0.5"]) := by decide +kernel
  refine ⟨⟨planned, served, by decide +kernel⟩, ?_⟩
  obtain ⟨plan, plan_eq, fields⟩ := Option.map_eq_some_iff.mp planned
  refine ⟨plan, plan_eq, fun agree => ?_⟩
  have aggregated := ((agree "10.96.0.7").1.mp ⟨_, served, by decide⟩).1
  rw [(Prod.mk.inj fields).2] at aggregated
  revert aggregated
  decide

end DatawerxMesh.Controllers
