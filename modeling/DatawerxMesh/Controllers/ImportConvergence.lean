import DatawerxMesh.Controllers.HeadlessViews
import DatawerxMesh.Controllers.MirrorConvergence

/-!
# Imports converge

`ServiceImportReconciler.Reconcile` when its calls succeed: it writes or deletes the import of a
service and converges the mirrored slices.
-/

namespace DatawerxMesh.Controllers

open Go Program ApiServer DatawerxMesh.Dns Function Option

/-- A stored ServiceImport: its spec, and the clusters in its status. -/
structure ImportBody where
  spec : ServiceImportSpec
  clusters : List Str
  deriving DecidableEq

/-- The ServiceImports of a cluster with their metadata. -/
abbrev Imports := Store ServiceKey Str ImportBody

/-- The objects of a cluster that the reconciler reads and writes. -/
structure ImportObjects where
  exports : List EndpointExport
  imports : Imports
  slices : Slices

/-- The body before the first write. -/
def emptyImport : ImportBody := ⟨⟨[], [], .clusterSetIP⟩, []⟩

namespace ServiceImportReconciler

/-- The spec is created or updated, then the status is patched if it differs. -/
def applyServiceImport (key : ServiceKey) (plan : ImportPlan) (clusterSetIPs : List Str)
    (imports : Imports) : Imports :=
  let written := imports.write key emptyImport fun body =>
    { body with spec := importSpec plan clusterSetIPs }
  written.write key emptyImport fun body => { body with clusters := plan.clusters }

/-- Deletion of an import, if it is there. -/
def deleteServiceImport (key : ServiceKey) (imports : Imports) : Imports := imports.delete key

/-- `reconcileMirrorSlices` as a part of `Reconcile`. -/
def mirrorSlices (mirror : Runtime MirrorSite) (key : ServiceKey)
    (endpoints : List ExportedEndpoint) (objects : ImportObjects) :
    Except Str Unit × ImportObjects :=
  let (result, slices) :=
    (reconcileMirrorSlices mirror key endpoints).run.exec (serveSlices mirror) objects.slices
  (result, { objects with slices })

/-- The endpoints that `Reconcile` mirrors for a plan. -/
def mirrored (go : Runtime Site) (exports : List EndpointExport) (key : ServiceKey)
    (plan : ImportPlan) : List ExportedEndpoint :=
  if plan.type = .headless then
    endpointsOf (groupExports go (exports.map endpointExportToExported)).1 key
  else []

/-- `ServiceImportReconciler.Reconcile` after it has listed the exports.  Only a slice can be
refused, when its address type would change. -/
def reconcileRequest (go : Runtime Site) (mirror : Runtime MirrorSite) (quote : Str → Str)
    (r : ServiceImportReconciler) (exports : List EndpointExport) (key : ServiceKey)
    (objects : ImportObjects) : Except Str Unit × ImportObjects :=
  match r.derive go quote exports key with
  | none =>
    match mirrorSlices mirror key [] objects with
    | (.error error, after) => (.error error, after)
    | (.ok (), after) =>
      (.ok (), { after with imports := deleteServiceImport key after.imports })
  | some (_, .error error) => (.error (error.text quote), objects)
  | some (plan, .ok vips) =>
    mirrorSlices mirror key (mirrored go exports key plan)
      { objects with imports := applyServiceImport key plan vips objects.imports }

section Import

variable {imports : Imports} {key : ServiceKey} {plan : ImportPlan} {vips : List Str}

theorem importSpec_eq (plan : ImportPlan) (vips : List Str) :
    importSpec plan vips =
      ⟨plan.ports, if plan.type = .clusterSetIP then vips else [], plan.type⟩ := by
  rw [importSpec]
  by_cases empty : vips = []
  · simp [empty]
  · simp [empty]

theorem find_applyServiceImport (key : ServiceKey) (plan : ImportPlan) (vips : List Str)
    (imports : Imports) :
    (applyServiceImport key plan vips imports).find = Function.update imports.find key
      (some (.rewrite (imports.find key) ⟨importSpec plan vips, plan.clusters⟩)) := by
  rw [applyServiceImport, Store.find_write, Store.find_write, update_self,
    update_idem, Held.rewrite_rewrite, elim_some, Held.body_rewrite]

theorem applyServiceImport_of_stored {held : Held Str ImportBody}
    (found : imports.find key = some held)
    (body_eq : held.body = ⟨importSpec plan vips, plan.clusters⟩) :
    applyServiceImport key plan vips imports = imports := by
  have spec_eq : imports.write key emptyImport (fun body =>
      { body with spec := importSpec plan vips }) = imports :=
    Store.write_eq_self found _ (by rw [body_eq])
  rw [applyServiceImport, spec_eq]
  exact Store.write_eq_self found _ (by rw [body_eq])

end Import

section Reconcile

variable {go : Runtime Site} {mirror : Runtime MirrorSite} {quote : Str → Str}
  {r : ServiceImportReconciler} {key : ServiceKey} {stored exports : List EndpointExport}
  {before after : ImportObjects} {plan : ImportPlan} {vips : List Str}

theorem desiredSlices_eq (derived : r.derive go quote exports key = some (plan, .ok vips)) :
    r.desiredSlices go mirror quote exports key =
      planEndpointSlices mirror key.name key.namespace_ (mirrored go exports key plan) := by
  rw [desiredSlices, derived, mirrored]
  dsimp only
  split
  · rfl
  · exact (planEndpointSlices_nil mirror _ _).symm

theorem exists_derive (go : Runtime Site) (quote : Str → Str) (r : ServiceImportReconciler)
    {ee : EndpointExport} (listed : ee ∈ exports) (own : ExportsService key ee) :
    ∃ plan allocation, r.derive go quote exports key = some (plan, allocation) := by
  have mem := (mem_endpoints_iff go).mpr ⟨ee, listed, own, rfl⟩
  have sorted := (go.sortSlice_arranges .planServiceImport lessExport_orders
    (endpointsOf (groupExports go (exports.map endpointExportToExported)).1 key)).perm
  rw [derive]
  dsimp only
  rw [planServiceImport]
  dsimp only
  split
  case h_1 empty =>
    rw [← sorted.mem_iff, empty] at mem
    cases mem
  case h_2 => exact ⟨_, _, rfl⟩

theorem derive_eq_none_iff (go : Runtime Site) (quote : Str → Str) (r : ServiceImportReconciler)
    (key : ServiceKey) (listed : stored.Perm exports) :
    (∀ ee ∈ stored, ¬ ExportsService key ee) ↔ r.derive go quote exports key = none := by
  constructor
  · intro absent
    exact derive_eq_none fun ee mem same =>
      absent ee (listed.mem_iff.mpr mem) (key_eq_iff_exports.mp same)
  · intro derived ee mem own
    obtain ⟨plan, allocation, some_plan⟩ := exists_derive go quote r (listed.mem_iff.mp mem) own
    cases derived.symm.trans some_plan

theorem derive_eq_of_untied (listed : stored.Perm exports)
    (untied : Untied (bucket (stored.map endpointExportToExported) key))
    (own : ∀ plan vips, r.derive go quote exports key = some (plan, vips) →
      plan.type = .clusterSetIP → OwnText stored key)
    (go' : Runtime Site) {exports' : List EndpointExport} (perm : stored.Perm exports') :
    r.derive go quote exports key = r.derive go' quote exports' key := by
  refine derive_eq go go' quote r (listed.symm.trans perm) (fun a a_mem b b_mem => ?_)
    fun plan vips derived type_eq ee mem =>
      own plan vips derived type_eq ee (listed.mem_iff.mpr mem)
  have perm := ((listed.map endpointExportToExported).filter fun e => e.key = key).map
    ExportedService.endpoint
  exact untied a (perm.mem_iff.mpr a_mem) b (perm.mem_iff.mpr b_mem)

/-- Two runs that derive the same plan the same slices, if maybe not in one order. -/
theorem mem_desiredSlices_congr {go' : Runtime Site} (mirror mirror' : Runtime MirrorSite)
    {exports' : List EndpointExport} (perm : exports.Perm exports')
    (same : r.derive go quote exports key = r.derive go' quote exports' key)
    (want : MirroredSlice) :
    want ∈ r.desiredSlices go mirror quote exports key ↔
      want ∈ r.desiredSlices go' mirror' quote exports' key := by
  have endpoints := endpointsOf_groupExports_perm go go' (perm.map endpointExportToExported) key
  cases derived : r.derive go quote exports key with
  | none => rw [desiredSlices, desiredSlices, ← same, derived]
  | some pair =>
    obtain ⟨plan, error | vips⟩ := pair
    · rw [desiredSlices, desiredSlices, ← same, derived]
    · rw [desiredSlices_eq derived, desiredSlices_eq (same.symm.trans derived), mirrored, mirrored,
        mem_planEndpointSlices, mem_planEndpointSlices]
      split
      · simp only [endpoints.mem_iff]
      · rfl

/-- The import that a run leaves. -/
def desiredImport (go : Runtime Site) (quote : Str → Str) (r : ServiceImportReconciler)
    (exports : List EndpointExport) (key : ServiceKey) (stored : Option (Held Str ImportBody)) :
    Option (Held Str ImportBody) :=
  match r.derive go quote exports key with
  | some (plan, .ok vips) => some (.rewrite stored ⟨importSpec plan vips, plan.clusters⟩)
  | _ => none

/-- The objects of the service are the wanted ones, and those of others are as before. -/
structure Converged (go : Runtime Site) (mirror : Runtime MirrorSite) (quote : Str → Str)
    (r : ServiceImportReconciler) (exports : List EndpointExport) (key : ServiceKey)
    (before after : ImportObjects) : Prop where
  listed : after.exports = before.exports
  imports : after.imports.find = Function.update before.imports.find key
    (r.desiredImport go quote exports key (before.imports.find key))
  slices : Mirrors key (r.desiredSlices go mirror quote exports key) before.slices after.slices

/-- A run succeeds, and no finalizer holds back what it deletes. -/
theorem converged_of_ran
    (ran : r.reconcileRequest go mirror quote exports key before = (.ok (), after))
    (distinct : ((r.desiredSlices go mirror quote exports key).map MirroredSlice.name).Nodup)
    (unclaimed : Unclaimed key (r.desiredSlices go mirror quote exports key) before.slices)
    (prunable : Prunable key (r.desiredSlices go mirror quote exports key) before.slices)
    (removable : r.derive go quote exports key = none →
      ∀ held, before.imports.find key = some held → held.finalizers = []) :
    r.Converged go mirror quote exports key before after := by
  cases derived : r.derive go quote exports key with
  | none =>
    have slices_eq : r.desiredSlices go mirror quote exports key = [] := by
      rw [desiredSlices, derived]
    rw [slices_eq] at distinct unclaimed prunable
    rw [reconcileRequest, derived] at ran
    dsimp only [mirrorSlices] at ran
    rcases executed : (reconcileMirrorSlices mirror key []).run.exec (serveSlices mirror)
      before.slices with ⟨error | _, slices⟩
    · rw [executed] at ran
      cases ran
    · rw [executed] at ran
      obtain rfl := (Prod.mk.inj ran).2
      refine ⟨rfl, ?_, slices_eq ▸
        mirrors_of_ran (planEndpointSlices_nil mirror _ _) distinct unclaimed prunable executed⟩
      refine (Store.find_delete _ _).trans ?_
      rw [desiredImport, derived]
      cases found : before.imports.find key with
      | none => rfl
      | some held =>
        rw [bind_some, Held.requestDelete, dif_neg (not_not.mpr (removable derived held found))]
  | some pair =>
    obtain ⟨plan, error | vips⟩ := pair
    · rw [reconcileRequest, derived] at ran
      cases ran
    · rw [desiredSlices_eq derived] at distinct unclaimed prunable
      rw [reconcileRequest, derived] at ran
      dsimp only [mirrorSlices] at ran
      obtain ⟨result_eq, rfl⟩ := Prod.mk.inj ran
      refine ⟨rfl, ?_, desiredSlices_eq derived ▸
        mirrors_of_ran rfl distinct unclaimed prunable (Prod.ext result_eq rfl)⟩
      rw [desiredImport, derived]
      exact find_applyServiceImport key plan vips before.imports

/-- Another run that derives the same leaves everything as it is. -/
theorem reconcileRequest_of_converged {go' : Runtime Site} {mirror' : Runtime MirrorSite}
    {exports' : List EndpointExport} (perm : exports.Perm exports')
    (same : r.derive go quote exports key = r.derive go' quote exports' key)
    (converged : r.Converged go mirror quote exports key before after)
    (allocates : ∀ plan error, r.derive go quote exports key ≠ some (plan, .error error)) :
    r.reconcileRequest go' mirror' quote exports' key after = (.ok (), after) := by
  have member_iff := mem_desiredSlices_congr mirror mirror' perm same
  have stored : ∀ want ∈ r.desiredSlices go' mirror' quote exports' key,
      ∃ held, after.slices.find want.place = some held ∧ held.body = want.body := fun want mem =>
    ⟨_, converged.slices.planned want ((member_iff want).mpr mem), Held.body_rewrite _ _⟩
  have planned : ∀ place held, after.slices.find place = some held → MirroredFor key place held →
      ∃ want ∈ r.desiredSlices go' mirror' quote exports' key, want.place = place := by
    intro place held found own
    obtain ⟨want, mem, at_place⟩ := converged.slices.exists_planned found own
    exact ⟨want, (member_iff want).mp mem, at_place⟩
  have import_eq := congrFun converged.imports key
  rw [update_self, desiredImport] at import_eq
  cases derived : r.derive go quote exports key with
  | none =>
    rw [derived] at import_eq same
    have slices_eq : r.desiredSlices go' mirror' quote exports' key = [] := by
      rw [desiredSlices, ← same]
    rw [slices_eq] at stored planned
    rw [reconcileRequest, ← same, mirrorSlices,
      exec_of_mirrored (planEndpointSlices_nil mirror' _ _) stored planned]
    dsimp only
    rw [deleteServiceImport, Store.delete, import_eq]
  | some pair =>
    obtain ⟨plan, error | vips⟩ := pair
    · exact absurd derived (allocates plan error)
    · rw [derived] at import_eq same
      rw [desiredSlices_eq same.symm] at stored planned
      rw [reconcileRequest, ← same]
      dsimp only
      rw [applyServiceImport_of_stored import_eq (Held.body_rewrite _ _), mirrorSlices,
        exec_of_mirrored rfl stored planned]

theorem Converged.mirrored_iff (converged : r.Converged go mirror quote exports key before after)
    (derived : r.derive go quote exports key = some (plan, .ok vips)) {place : Str × Str}
    {held : HeldSlice} :
    (after.slices.find place = some held ∧ MirroredFor key place held) ↔
      ∃ want ∈ r.desiredSlices go mirror quote exports key,
        want.place = place ∧ held = .rewrite (before.slices.find place) want.body := by
  constructor
  · rintro ⟨found, own⟩
    obtain ⟨want, mem, rfl⟩ := converged.slices.exists_planned found own
    exact ⟨want, mem, rfl, Option.some.inj
      (found.symm.trans (converged.slices.planned want mem))⟩
  · rintro ⟨want, mem, rfl, rfl⟩
    refine ⟨converged.slices.planned want mem, ?_⟩
    rw [desiredSlices_eq derived] at mem
    rw [MirroredFor, Held.body_rewrite]
    exact labels_of_mem_plan mem

end Reconcile

end ServiceImportReconciler

/-- A run in which the server lists the exports as they are stored. -/
def ServiceImportReconciler.run (r : ServiceImportReconciler) (key : ServiceKey)
    (objects : ImportObjects) : Except Str Unit × ImportObjects :=
  r.reconcileRequest (.stable Site) (.stable MirrorSite) id objects.exports key objects

/-- A headless export of the service `prod/db`. -/
def dbExport (name clusterID ip : Str) : EndpointExport where
  namespace_ := "prod"
  name := name
  spec := {
    clusterID
    serviceNamespace := "prod"
    serviceName := "db"
    type := .headless
    exportedAtUnix := 5
    ports := []
    ips := [ip] }

/-- The key of the database. -/
def dbKey : ServiceKey := ⟨"prod", "db"⟩

/-- A slice that is mirrored for the service. -/
def staleSlice (finalizers : List Str) : HeldSlice :=
  .create finalizers (mirrorSlice "db" "prod" "old" .ipv4 ["10.9.0.1"] []
    0).body

/-- The service has a slice of a cluster that does not export it any more. -/
def staleObjects (finalizers : List Str) (exports : List EndpointExport) : ImportObjects :=
  ⟨exports, ∅, (∅ : Slices).put ("prod", "db-old-ipv4-0") (some (staleSlice finalizers))⟩

theorem eq_stale_of_find {finalizers : List Str} {exports : List EndpointExport}
    {place : Str × Str} {held : HeldSlice}
    (found : (staleObjects finalizers exports).slices.find place = some held) :
    place = (str "prod", str "db-old-ipv4-0") ∧ held = staleSlice finalizers := by
  rw [staleObjects, Store.find_put] at found
  by_cases same : place = (str "prod", str "db-old-ipv4-0")
  · rw [same, update_self] at found
    exact ⟨same, (Option.some.inj found).symm⟩
  · rw [update_of_ne same] at found
    cases found

/-- The key of the web service. -/
def webKey : ServiceKey := ⟨"prod", "web"⟩

/-- A ClusterSetIP export of another service. -/
def webExportFor (key : ServiceKey) : EndpointExport :=
  let ee := webExportBy "cluster-a" "http" 7
  { ee with spec := { ee.spec with serviceNamespace := key.namespace_, serviceName := key.name } }

/-- A second run, in which the exports are listed in the other order, changes the import. -/
def Wavers (r : ServiceImportReconciler) (key : ServiceKey) (exports : List EndpointExport) :
    Prop :=
  let once := r.run key ⟨exports, ∅, ∅⟩
  once.1 = .ok () ∧ (r.reconcileRequest (.stable Site) (.stable MirrorSite) id exports.reverse key
    once.2).2.imports.find key ≠ once.2.imports.find key

end DatawerxMesh.Controllers
