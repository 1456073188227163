import DatawerxMesh.Controllers.ExportSafety

/-!
# Lifecycle of published services

Runs in which users act and a process reconciles one name again and again.  An EndpointExport exists
only while the ServiceExport exists and has the finalizer.
-/

namespace DatawerxMesh.Controllers

open Go Program ApiServer Relation DatawerxMesh.Dns

/-- Users act at any time, a reconciliation starts, one of its calls is answered, or it returns. -/
abbrev ExportStep (r : ServiceExportReconciler) (namespace_ name : Str) :=
  Worker.Step (exportWorld r namespace_ name).logged (fun _ : Unit => r.reconcile)
    fun _ _ state => (state.1, [])

/-- In every state of a run the EndpointExport exists only next to a ServiceExport with the
finalizer.  When a reconciliation that observed a live ServiceExport with the finalizer returns
without an error, the EndpointExport exists if and only if it observed the Service. -/
theorem no_orphaned_publication (r : ServiceExportReconciler) (namespace_ name : Str)
    (start : ExportCluster) (absent : start.export_ = none)
    (unpublished : start.published r namespace_ name = none)
    (service_named : ∀ svc, start.service = some svc →
      svc.namespace_ = namespace_ ∧ svc.name = name)
    (worker : Worker Unit ExportCall ExportCall.Answer (Except Str Unit)
      (ExportCluster × List ExportExchange))
    (reached : ReflTransGen (ExportStep r namespace_ name) ⟨(start, []), none⟩ worker) :
    (worker.state.1.published r namespace_ name ≠ none → worker.state.1.Finalized) ∧
    ∀ result, worker.running = some ((), .done result) → result = .ok () →
      ObservedLive worker.state.2 →
      (worker.state.1.published r namespace_ name ≠ none ↔ ObservedService worker.state.2) := by
  have start_safe : start.Safe r namespace_ name := by
    refine ⟨?_, service_named, ?_, fun published => absurd unpublished published⟩
    · intro held present
      rw [absent] at present
      cases present
    · intro held present
      rw [unpublished] at present
      cases present
  have guaranteed : worker.Guaranteed (exportWorld r namespace_ name).logged
      (fun state => state.1.Safe r namespace_ name ∧ state.2 = [])
      (fun _ state => state.1.Safe r namespace_ name)
      (fun _ => Reconciled r namespace_ name) := by
    refine Worker.guaranteed_of_reachable ?_ ?_ ?_ ?_ ⟨start_safe, rfl⟩ reached
    · exact fun before after here step => ⟨stable_safe _ _ here.1 step.1, step.2.trans here.2⟩
    · rintro _ result ⟨before, log⟩ ⟨after, after_log⟩ ⟨safe, done⟩ ⟨step, rfl⟩
      refine ⟨stable_safe _ _ safe step, fun success live => ?_⟩
      rw [stable_published _ before after rfl step]
      exact done success live
    · rintro _ ⟨cluster, log⟩ ⟨safe, rfl⟩
      exact guarantees_reconcile safe
    · exact fun _ _ _ safe _ => ⟨safe, rfl⟩
  obtain ⟨state, running⟩ := worker
  cases running with
  | none => exact ⟨guaranteed.1.finalized, by rintro result ⟨⟩⟩
  | some job =>
    obtain ⟨_, script⟩ := job
    refine ⟨(World.Ensures.now guaranteed).finalized, ?_⟩
    rintro result ⟨⟩
    exact guaranteed.2

/-- An API server that serves all calls. -/
def answerExport : (call : ExportCall) → ExportCluster → call.Answer × ExportCluster
  | .getExport, cluster =>
    match cluster.export_ with
    | some held => (.ok held, cluster)
    | none => (.error ⟨true, []⟩, cluster)
  | .updateExport request, cluster =>
    match request.apply cluster.export_ with
    | some object => (.ok (), { cluster with export_ := object })
    | none => (.error ⟨false, []⟩, cluster)
  | .patchStatus conditions, cluster =>
    match cluster.export_ with
    | some held =>
      (.ok (), { cluster with export_ := some (held.withBody { held.body with conditions }) })
    | none => (.error ⟨true, []⟩, cluster)
  | .getService, cluster =>
    match cluster.service with
    | some svc => (.ok svc, cluster)
    | none => (.error ⟨true, []⟩, cluster)
  | .listSlices _ _, cluster => (.ok [], cluster)
  | .getEndpoint key, cluster =>
    match cluster.endpoints.find key with
    | some held => (.ok held, cluster)
    | none => (.error ⟨true, []⟩, cluster)
  | .writeEndpoint key request, cluster =>
    match request.apply (cluster.endpoints.find key) with
    | some object => (.ok (), { cluster with endpoints := cluster.endpoints.put key object })
    | none => (.error ⟨false, []⟩, cluster)

theorem respond_answerExport (r : ServiceExportReconciler) (namespace_ name : Str)
    (call : ExportCall) (cluster : ExportCluster) :
    (exportWorld r namespace_ name).respond call cluster (answerExport call cluster).1
      (answerExport call cluster).2 := by
  cases call with
  | getExport =>
    simp only [answerExport]
    cases found : cluster.export_ with
    | some held => exact Or.inl ⟨held, rfl, found, rfl⟩
    | none => exact Or.inr ⟨_, rfl, fun _ => found, Or.inl rfl⟩
  | updateExport request =>
    simp only [answerExport]
    cases applied : request.apply cluster.export_ with
    | some object => exact Or.inl ⟨(), rfl, object, applied, rfl⟩
    | none => exact Or.inr ⟨_, rfl, by simp, Or.inl rfl⟩
  | patchStatus conditions =>
    simp only [answerExport]
    cases found : cluster.export_ with
    | some held => exact Or.inl ⟨(), rfl, held, found, rfl⟩
    | none => exact Or.inr ⟨_, rfl, fun _ => found, Or.inl rfl⟩
  | getService =>
    simp only [answerExport]
    cases found : cluster.service with
    | some svc => exact Or.inl ⟨svc, rfl, found, rfl⟩
    | none => exact Or.inr ⟨_, rfl, fun _ => found, Or.inl rfl⟩
  | listSlices namespace_ service => exact Or.inl ⟨[], rfl, rfl⟩
  | getEndpoint key =>
    simp only [answerExport]
    cases found : cluster.endpoints.find key with
    | some held => exact Or.inl ⟨held, rfl, found, rfl⟩
    | none => exact Or.inr ⟨_, rfl, fun _ => found, Or.inl rfl⟩
  | writeEndpoint key request =>
    simp only [answerExport]
    cases applied : request.apply (cluster.endpoints.find key) with
    | some object => exact Or.inl ⟨(), rfl, object, applied, rfl⟩
    | none => exact Or.inr ⟨_, rfl, by simp, Or.inl rfl⟩

/-- The reconciler of `cluster-a`. -/
def exporterA : ServiceExportReconciler := ⟨"cluster-a"⟩

/-- A Service with a cluster address. -/
def webService : Service :=
  ⟨"prod", "web", "10.96.0.7", ["10.96.0.7"], [⟨"http", "TCP", none, 80⟩]⟩

/-- A cluster with a Service that is not exported. -/
def unexported : ExportCluster := ⟨none, some webService, ∅⟩

/-- The same cluster after a user created the ServiceExport. -/
def requested : ExportCluster :=
  { unexported with export_ := some (.create [] ⟨"prod", "web", 1, 1700000000, []⟩) }

/-- The cluster and the log when a reconciliation returns. -/
def reconciledExport (cluster : ExportCluster) : ExportCluster × List ExportExchange :=
  (exporterA.reconcile.exec (World.logging answerExport) (cluster, [])).2

theorem reaches_reconciledExport (cluster : ExportCluster) :
    ReflTransGen (ExportStep exporterA "prod" "web") ⟨(cluster, []), none⟩
      ⟨reconciledExport cluster,
        some ((), .done (exporterA.reconcile.exec (World.logging answerExport)
          (cluster, [])).1)⟩ := by
  refine .head (.start _ ()) (Worker.reaches_exec (fun request state => ?_) () _ _)
  exact ⟨respond_answerExport _ _ _ request state.1, rfl⟩

/-- The second reconciliation publishes the Service. -/
theorem no_orphaned_publication_web :
    let published := reconciledExport (reconciledExport requested).1
    published.1.published exporterA "prod" "web" ≠ none ∧ published.1.Finalized := by
  have created : ExportStep exporterA "prod" "web" ⟨(unexported, []), none⟩
      ⟨(requested, []), none⟩ :=
    .interfere ⟨.createExport rfl [] _ ⟨rfl, rfl⟩, rfl⟩
  have finalizer_added := (ReflTransGen.single created).trans (reaches_reconciledExport requested)
  have run := (finalizer_added.tail (.settle _ _ _)).trans
    (reaches_reconciledExport (reconciledExport requested).1)
  have named : ∀ svc, unexported.service = some svc →
      svc.namespace_ = "prod" ∧ svc.name = "web" := by
    rintro svc ⟨⟩
    exact ⟨rfl, rfl⟩
  obtain ⟨finalized, -⟩ := no_orphaned_publication exporterA "prod" "web" unexported rfl
    rfl named _ run
  have stored : (reconciledExport (reconciledExport requested).1).1.published exporterA
      "prod" "web" ≠ none := by decide +kernel
  exact ⟨stored, finalized stored⟩

end DatawerxMesh.Controllers
