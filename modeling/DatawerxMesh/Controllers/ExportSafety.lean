import DatawerxMesh.Controllers.ServiceExport

/-!
# Publication behind a finalizer

Users act at any time and every call may fail, and each part of a reconciliation keeps the
EndpointExport next to a ServiceExport with the finalizer.
-/

namespace DatawerxMesh.Controllers

open Go Program ApiServer Relation DatawerxMesh.Dns List Function World

/-- The objects of one name, and the EndpointExports. -/
structure ExportCluster where
  export_ : Option HeldExport
  service : Option Service
  endpoints : Store (Str × Str) Str EndpointExportSpec

/-- What a call that is carried out returns and does. -/
def ExportCall.Carried :
    (call : ExportCall) → ExportCluster → call.Value → ExportCluster → Prop
  | getExport, before, held, after => before.export_ = some held ∧ after = before
  | updateExport request, before, _, after =>
    ∃ object, request.apply before.export_ = some object ∧
      after = { before with export_ := object }
  | patchStatus conditions, before, _, after =>
    ∃ held, before.export_ = some held ∧
      after = { before with export_ := some (held.withBody { held.body with conditions }) }
  | getService, before, svc, after => before.service = some svc ∧ after = before
  | listSlices _ _, before, _, after => after = before
  | getEndpoint key, before, held, after => before.endpoints.find key = some held ∧ after = before
  | writeEndpoint key request, before, _, after =>
    ∃ object, request.apply (before.endpoints.find key) = some object ∧
      after = { before with endpoints := before.endpoints.put key object }

/-- The call names an object that does not exist. -/
def ExportCall.Missing : ExportCall → ExportCluster → Prop
  | getExport, cluster | updateExport _, cluster | patchStatus _, cluster => cluster.export_ = none
  | getService, cluster => cluster.service = none
  | listSlices _ _, _ => False
  | getEndpoint key, cluster | writeEndpoint key _, cluster => cluster.endpoints.find key = none

/-- Others create and delete the ServiceExport, and write the Service and other EndpointExports. -/
inductive UserStep (r : ServiceExportReconciler) (namespace_ name : Str) :
    ExportCluster → ExportCluster → Prop
  | createExport {before : ExportCluster} (absent : before.export_ = none) (finalizers : List Str)
      (body : ServiceExport) (named : body.namespace_ = namespace_ ∧ body.name = name) :
      UserStep r namespace_ name before { before with export_ := some (.create finalizers body) }
  | deleteExport {before : ExportCluster} {held : HeldExport}
      (present : before.export_ = some held) :
      UserStep r namespace_ name before { before with export_ := held.requestDelete }
  | writeService {before : ExportCluster} (service : Option Service)
      (named : ∀ svc, service = some svc → svc.namespace_ = namespace_ ∧ svc.name = name) :
      UserStep r namespace_ name before { before with service }
  | writeEndpoint {before : ExportCluster} {key : Str × Str}
      (other : key ≠ r.endpointKey namespace_ name)
      (object : Option (Held Str EndpointExportSpec)) :
      UserStep r namespace_ name before { before with endpoints := before.endpoints.put key object }

/-- The world of a reconciliation. -/
def exportWorld (r : ServiceExportReconciler) (namespace_ name : Str) :
    World ExportCall ExportCall.Answer ExportCluster where
  respond call before answer after := Answers call.Carried call.Missing before answer after
  interfere := UserStep r namespace_ name

/-- The ServiceExport exists and has the finalizer. -/
def ExportCluster.Finalized (cluster : ExportCluster) : Prop :=
  ∃ held, cluster.export_ = some held ∧ serviceExportFinalizer ∈ held.finalizers

section Invariant

variable (r : ServiceExportReconciler) (namespace_ name : Str)

/-- The EndpointExport of a service. -/
def ExportCluster.published (cluster : ExportCluster) : Option (Held Str EndpointExportSpec) :=
  cluster.endpoints.find (r.endpointKey namespace_ name)

/-- The objects have the name, and an EndpointExport has no finalizer and stands next to a
ServiceExport with the finalizer. -/
structure ExportCluster.Safe (cluster : ExportCluster) : Prop where
  export_named : ∀ held, cluster.export_ = some held →
    held.body.namespace_ = namespace_ ∧ held.body.name = name
  service_named : ∀ svc, cluster.service = some svc → svc.namespace_ = namespace_ ∧ svc.name = name
  plain : ∀ held, cluster.published r namespace_ name = some held → held.finalizers = []
  finalized : cluster.published r namespace_ name ≠ none → cluster.Finalized

end Invariant

variable {r : ServiceExportReconciler} {namespace_ name : Str}

theorem stable_published (object : Option (Held Str EndpointExportSpec)) :
    (exportWorld r namespace_ name).Stable fun cluster =>
      cluster.published r namespace_ name = object := by
  intro before after here step
  cases step with
  | createExport | deleteExport | writeService => exact here
  | writeEndpoint other written =>
    rw [ExportCluster.published, Store.find_put, update_of_ne other.symm]
    exact here

theorem stable_finalized : (exportWorld r namespace_ name).Stable ExportCluster.Finalized := by
  rintro before after ⟨held, present, finalizer⟩ step
  cases step with
  | createExport absent finalizers body named =>
    rw [present] at absent
    cases absent
  | @deleteExport deleted deleted_present =>
    obtain rfl := Option.some.inj (present.symm.trans deleted_present)
    have kept : held.finalizers ≠ [] := ne_nil_of_mem finalizer
    exact ⟨{ held with deleting := true, kept := fun _ => kept }, dif_pos kept, finalizer⟩
  | writeService service named => exact ⟨held, present, finalizer⟩
  | writeEndpoint other written => exact ⟨held, present, finalizer⟩

theorem stable_safe :
    (exportWorld r namespace_ name).Stable (ExportCluster.Safe r namespace_ name) := by
  intro before after safe step
  have published_eq : after.published r namespace_ name = before.published r namespace_ name :=
    stable_published _ before after rfl step
  refine ⟨?_, ?_, ?_, ?_⟩
  · intro held present
    cases step with
    | createExport absent finalizers body named =>
      obtain rfl := Option.some.inj present
      exact named
    | deleteExport deleted_present =>
      rw [(Held.requestDelete_eq_some present).2.2]
      exact safe.export_named _ deleted_present
    | writeService service named => exact safe.export_named held present
    | writeEndpoint other written => exact safe.export_named held present
  · intro svc present
    cases step with
    | writeService service named => exact named svc present
    | createExport | deleteExport | writeEndpoint => exact safe.service_named svc present
  · rw [published_eq]
    exact safe.plain
  · rw [published_eq]
    exact fun published => stable_finalized before after (safe.finalized published) step

/-- A call with its answer. -/
abbrev ExportExchange := Exchange ExportCall ExportCall.Answer

variable {log after : List ExportExchange} {cluster : ExportCluster} {held : HeldExport}

/-- The calls by which a reconciliation observes the ServiceExport and the Service. -/
def ExportCall.observes : ExportCall → Bool
  | getExport | getService => true
  | _ => false

/-- The log grows by calls that observe neither. -/
def Quiet (log after : List ExportExchange) : Prop :=
  ∃ new, after = log ++ new ∧ ∀ exchange ∈ new, exchange.1.observes = false

theorem Quiet.refl (log : List ExportExchange) : Quiet log log := ⟨[], by simp⟩

theorem Quiet.cons {call : ExportCall} {answer : call.Answer} (unobserving : call.observes = false)
    (rest : Quiet (log ++ [⟨call, answer⟩]) after) : Quiet log after := by
  obtain ⟨new, rfl, quiet⟩ := rest
  refine ⟨⟨call, answer⟩ :: new, by simp, fun exchange mem => ?_⟩
  rcases mem_cons.mp mem with rfl | later
  · exact unobserving
  · exact quiet exchange later

theorem Quiet.trans {middle : List ExportExchange} (first : Quiet log middle)
    (second : Quiet middle after) : Quiet log after := by
  obtain ⟨new, rfl, quiet⟩ := first
  obtain ⟨more, rfl, more_quiet⟩ := second
  refine ⟨new ++ more, by simp, fun exchange mem => ?_⟩
  rcases mem_append.mp mem with earlier | later
  · exact quiet exchange earlier
  · exact more_quiet exchange later

/-- Guarantees of a part of a reconciliation, which keeps the invariant in all states. -/
abbrev Guarantees (r : ServiceExportReconciler) (namespace_ name : Str) {α : Type}
    (post : α → ExportCluster × List ExportExchange → Prop) (script : ExportScript α)
    (cluster : ExportCluster) (log : List ExportExchange) : Prop :=
  (exportWorld r namespace_ name).logged.Ensures
    (fun seen => seen.1.Safe r namespace_ name) post script (cluster, log)

section

variable (safe : cluster.Safe r namespace_ name)

include safe

theorem safe_write {object : Option (Held Str EndpointExportSpec)}
    (plain : ∀ held, object = some held → held.finalizers = [] ∧ cluster.Finalized) :
    ({ cluster with endpoints := cluster.endpoints.put (r.endpointKey namespace_ name) object } :
      ExportCluster).Safe r namespace_ name := by
  have published_eq : ({ cluster with
      endpoints := cluster.endpoints.put (r.endpointKey namespace_ name) object } :
      ExportCluster).published r namespace_ name = object := by
    rw [ExportCluster.published, Store.find_put, update_self]
  refine ⟨safe.export_named, safe.service_named, ?_, ?_⟩
  · rw [published_eq]
    exact fun held present => (plain held present).1
  · rw [published_eq]
    intro present
    obtain ⟨held, rfl⟩ := Option.ne_none_iff_exists'.mp present
    exact (plain held rfl).2

theorem guarantees_withdraw :
    Guarantees r namespace_ name
      (fun result after => Quiet log after.2 ∧
        (result = .ok () → after.1.published r namespace_ name = none))
      (r.withdrawEndpointExport namespace_ name) cluster log := by
  refine Ensures.of_logged_call stable_safe (fun _ => id) ?_ safe
  intro seen answer after seen_safe answers
  -- The request removes the EndpointExport, which has no finalizer.
  have carried_effect : ∀ {value : Unit},
      ExportCall.Carried (.writeEndpoint (r.endpointKey namespace_ name) .delete) seen value after →
      after.Safe r namespace_ name ∧ after.published r namespace_ name = none := by
    rintro value ⟨object, applied, rfl⟩
    obtain ⟨held, found, rfl⟩ := Write.apply_delete_eq_some.mp applied
    rw [Held.requestDelete, dif_neg (not_not.mpr (seen_safe.plain held found))]
    refine ⟨safe_write seen_safe (by rintro _ ⟨⟩), ?_⟩
    rw [ExportCluster.published, Store.find_put, update_self]
  obtain ⟨value, rfl, carried⟩ | ⟨error, rfl, missing, effect⟩ := answers
  · exact ⟨(carried_effect carried).1, Quiet.cons rfl (Quiet.refl _),
      fun _ => (carried_effect carried).2⟩
  · have after_safe : after.Safe r namespace_ name := by
      rcases effect with rfl | ⟨_, carried⟩
      · exact seen_safe
      · exact (carried_effect carried).1
    dsimp only
    by_cases absent : error.notFound = true
    · rw [if_pos absent]
      refine ⟨after_safe, Quiet.cons rfl (Quiet.refl _), fun _ => ?_⟩
      rcases effect with rfl | ⟨_, carried⟩
      · exact missing absent
      · exact (carried_effect carried).2
    · rw [if_neg absent]
      exact ⟨after_safe, Quiet.cons rfl (Quiet.refl _), by rintro ⟨⟩⟩

theorem guarantees_setValidCondition (export_ : ServiceExport) (ok : Bool) (reason message : Str) :
    Guarantees r namespace_ name
      (fun _ after => Quiet log after.2 ∧
        after.1.published r namespace_ name = cluster.published r namespace_ name)
      (ServiceExportReconciler.setValidCondition export_ ok reason message) cluster log := by
  rw [ServiceExportReconciler.setValidCondition]
  generalize (if ok = true then ConditionStatus.true_ else ConditionStatus.false_) = status
  split
  case isTrue => exact ⟨safe, Quiet.refl _, rfl⟩
  case isFalse =>
    refine Ensures.of_logged_call (stable_safe.and (stable_published _)) (fun _ => And.left)
      ?_ ⟨safe, rfl⟩
    rintro seen answer after ⟨seen_safe, seen_published⟩ answers
    have carried_effect : ∀ {conditions : List Condition} {value : Unit},
        ExportCall.Carried (.patchStatus conditions) seen value after →
        after.Safe r namespace_ name ∧
          after.published r namespace_ name = seen.published r namespace_ name := by
      rintro conditions value ⟨held, present, rfl⟩
      refine ⟨⟨?_, seen_safe.service_named, seen_safe.plain, fun published => ?_⟩, rfl⟩
      · rintro other same
        obtain rfl := Option.some.inj same
        exact seen_safe.export_named held present
      · obtain ⟨kept, kept_present, finalizer⟩ := seen_safe.finalized published
        obtain rfl := Option.some.inj (present.symm.trans kept_present)
        exact ⟨_, rfl, finalizer⟩
    have effect : after.Safe r namespace_ name ∧
        after.published r namespace_ name = seen.published r namespace_ name := by
      rcases answers.effect with rfl | ⟨_, carried⟩
      · exact ⟨seen_safe, rfl⟩
      · exact carried_effect carried
    cases answer <;> exact ⟨effect.1, Quiet.cons rfl (Quiet.refl _), effect.2.trans seen_published⟩

theorem guarantees_exportedEndpoint (finalized : cluster.Finalized) (svc : Service) :
    Guarantees r namespace_ name (fun _ after => Quiet log after.2 ∧ after.1.Finalized)
      (r.exportedEndpoint svc) cluster log := by
  rw [ServiceExportReconciler.exportedEndpoint]
  split
  case isTrue =>
    refine Ensures.bind (Ensures.of_logged_call (stable_safe.and stable_finalized)
      (fun _ => And.left) ?_ ⟨safe, finalized⟩)
    rintro seen answer after ⟨seen_safe, seen_finalized⟩ answers
    obtain rfl : after = seen := answers.effect.elim id (Exists.elim · fun _ => id)
    cases answer <;> exact ⟨seen_safe, seen_safe, Quiet.cons rfl (Quiet.refl _), seen_finalized⟩
  case isFalse => exact ⟨safe, Quiet.refl _, finalized⟩

theorem guarantees_writeEndpoint
    (finalized : cluster.Finalized) {request : Write Str EndpointExportSpec}
    (stores : ∀ seen : ExportCluster, seen.Safe r namespace_ name → ∀ object,
      request.apply (seen.published r namespace_ name) = some object →
      ∃ held, object = some held ∧ held.finalizers = []) :
    Guarantees r namespace_ name
      (fun result after => Quiet log after.2 ∧
        (result.isOk = true → after.1.published r namespace_ name ≠ none))
      (Script.perform (ExportCall.writeEndpoint (r.endpointKey namespace_ name) request)) cluster
      log := by
  refine Ensures.of_logged_call (stable_safe.and stable_finalized) (fun _ => And.left) ?_
    ⟨safe, finalized⟩
  rintro seen answer after ⟨seen_safe, seen_finalized⟩ answers
  have carried_effect : ∀ {value : Unit},
      ExportCall.Carried (.writeEndpoint (r.endpointKey namespace_ name) request) seen value after →
      after.Safe r namespace_ name ∧ after.published r namespace_ name ≠ none := by
    rintro value ⟨object, applied, rfl⟩
    obtain ⟨held, rfl, plain⟩ := stores seen seen_safe object applied
    refine ⟨safe_write seen_safe fun other same => ?_, ?_⟩
    · obtain rfl := Option.some.inj same
      exact ⟨plain, seen_finalized⟩
    · rw [ExportCluster.published, Store.find_put, update_self]
      exact Option.some_ne_none held
  obtain ⟨value, rfl, carried⟩ | ⟨error, rfl, -, effect⟩ := answers
  · exact ⟨(carried_effect carried).1, Quiet.cons rfl (Quiet.refl _),
      fun _ => (carried_effect carried).2⟩
  · refine ⟨?_, Quiet.cons rfl (Quiet.refl _), by rintro ⟨⟩⟩
    rcases effect with rfl | ⟨_, carried⟩
    · exact seen_safe
    · exact (carried_effect carried).1

theorem guarantees_publish (finalized : cluster.Finalized)
    {svc : Service} (named : svc.namespace_ = namespace_ ∧ svc.name = name)
    (endpoint : ExportedEndpoint) (exportedAtUnix : Int) :
    Guarantees r namespace_ name
      (fun result after => Quiet log after.2 ∧
        (result = .ok () → after.1.published r namespace_ name ≠ none))
      (r.publishEndpointExport svc endpoint exportedAtUnix) cluster log := by
  rw [ServiceExportReconciler.publishEndpointExport, named.1, named.2]
  have written : Guarantees r namespace_ name
      (fun result after => Quiet log after.2 ∧
        (result.isOk = true → after.1.published r namespace_ name ≠ none))
      (createOrUpdate (Script.perform (ExportCall.getEndpoint (r.endpointKey namespace_ name)))
        (fun request =>
          Script.perform (ExportCall.writeEndpoint (r.endpointKey namespace_ name) request))
        ServiceExportReconciler.emptyEndpoint fun _ => r.exportedSpec svc endpoint exportedAtUnix)
      cluster log := by
    rw [createOrUpdate, Script.perform_bind]
    refine Ensures.of_logged_call (stable_safe.and stable_finalized) (fun _ => And.left) ?_
      ⟨safe, finalized⟩
    rintro seen answer after ⟨seen_safe, seen_finalized⟩ answers
    obtain ⟨existing, rfl, found, rfl⟩ | ⟨error, rfl, -, effect⟩ := answers
    · dsimp only
      split
      case isTrue =>
        refine ⟨seen_safe, Quiet.cons rfl (Quiet.refl _), fun _ => ?_⟩
        rw [ExportCluster.published, found]
        exact Option.some_ne_none existing
      case isFalse =>
        refine (guarantees_writeEndpoint seen_safe seen_finalized ?_).mono
          fun result final done => ⟨Quiet.cons rfl done.1, done.2⟩
        intro now now_safe object applied
        obtain ⟨stored, rfl⟩ := Write.apply_update_eq_some.mp applied
        exact ⟨_, existing.update_finalizers _, now_safe.plain existing stored⟩
    · have unchanged : after = seen := effect.elim id (Exists.elim · fun _ => And.right)
      subst unchanged
      dsimp only
      split
      case isTrue =>
        refine (guarantees_writeEndpoint seen_safe seen_finalized ?_).mono
          fun result final done => ⟨Quiet.cons rfl done.1, done.2⟩
        intro now now_safe object applied
        exact ⟨_, (Write.apply_create_eq_some.mp applied).2, rfl⟩
      case isFalse => exact ⟨seen_safe, Quiet.cons rfl (Quiet.refl _), by rintro ⟨⟩⟩
  refine Ensures.bind (written.with_always.mono fun result after done => ?_)
  obtain ⟨after_safe, quiet, published⟩ := done
  cases result with
  | ok _ => exact ⟨after_safe, quiet, fun _ => published rfl⟩
  | error _ => exact ⟨after_safe, quiet, by rintro ⟨⟩⟩

end

theorem Quiet.mem (quiet : Quiet log after) {exchange : ExportExchange} (mem : exchange ∈ after)
    (observing : exchange.1.observes = true) : exchange ∈ log := by
  obtain ⟨new, rfl, unobserving⟩ := quiet
  refine (mem_append.mp mem).resolve_right fun later => ?_
  rw [unobserving exchange later] at observing
  cases observing

/-- A reconciliation observed a live ServiceExport with the finalizer. -/
def ObservedLive (log : List ExportExchange) : Prop :=
  ∃ held : HeldExport, (⟨.getExport, .ok held⟩ : ExportExchange) ∈ log ∧ held.deleting = false ∧
    serviceExportFinalizer ∈ held.finalizers

/-- The Service was read. -/
def ObservedService (log : List ExportExchange) : Prop :=
  ∃ svc : Service, (⟨.getService, .ok svc⟩ : ExportExchange) ∈ log

theorem Quiet.observedService (quiet : Quiet log after) :
    ObservedService after ↔ ObservedService log := by
  constructor
  · rintro ⟨svc, mem⟩
    exact ⟨svc, quiet.mem mem rfl⟩
  · rintro ⟨svc, mem⟩
    obtain ⟨new, rfl, -⟩ := quiet
    exact ⟨svc, mem_append_left new mem⟩

theorem guarantees_reconcileExport (safe : cluster.Safe r namespace_ name)
    (finalized : cluster.Finalized) (unobserved : ¬ ObservedService log) {export_ : ServiceExport}
    (named : export_.namespace_ = namespace_ ∧ export_.name = name) :
    Guarantees r namespace_ name (fun result after => result = .ok () →
        (after.1.published r namespace_ name ≠ none ↔ ObservedService after.2))
      (r.reconcileExport export_) cluster log := by
  refine Ensures.of_logged_call (stable_safe.and stable_finalized) (fun _ => And.left) ?_
    ⟨safe, finalized⟩
  rintro seen answer after ⟨seen_safe, seen_finalized⟩ answers
  obtain ⟨svc, rfl, found, rfl⟩ | ⟨error, rfl, -, effect⟩ := answers
  · have observed : ObservedService (log ++ [⟨.getService, .ok svc⟩]) :=
      ⟨svc, mem_append_right log mem_cons_self⟩
    refine Ensures.bind ((guarantees_exportedEndpoint seen_safe seen_finalized svc).with_always.mono
        fun result middle read => ?_)
    obtain ⟨middle_safe, middle_quiet, middle_finalized⟩ := read
    cases result with
    | error _ => exact ⟨middle_safe, by rintro ⟨⟩⟩
    | ok endpoint =>
      refine Ensures.bind ((guarantees_publish middle_safe middle_finalized
        (seen_safe.service_named svc found) endpoint export_.creationTimestamp).with_always.mono
        fun result written published => ?_)
      obtain ⟨written_safe, written_quiet, present⟩ := published
      cases result with
      | error _ => exact ⟨written_safe, by rintro ⟨⟩⟩
      | ok _ =>
        refine (guarantees_setValidCondition written_safe _ _ _ _).mono
          fun result final ⟨final_quiet, same⟩ _ => ?_
        rw [same, ((middle_quiet.trans written_quiet).trans final_quiet).observedService]
        exact iff_of_true (present rfl) observed
  · have unchanged : after = seen := effect.elim id (Exists.elim · fun _ => And.right)
    subst unchanged
    have still_unobserved : ¬ ObservedService (log ++ [⟨.getService, .error error⟩]) := by
      rintro ⟨svc, mem⟩
      rcases mem_append.mp mem with earlier | last
      · exact unobserved ⟨svc, earlier⟩
      · rw [mem_singleton, Sigma.mk.injEq] at last
        cases eq_of_heq last.2
    dsimp only
    split
    case isTrue =>
      rw [named.1, named.2]
      refine Ensures.bind ((guarantees_withdraw seen_safe).with_always.mono
        fun result withdrawn done => ?_)
      obtain ⟨withdrawn_safe, withdrawn_quiet, absent⟩ := done
      cases result with
      | error _ => exact ⟨withdrawn_safe, by rintro ⟨⟩⟩
      | ok _ =>
        refine (guarantees_setValidCondition withdrawn_safe _ _ _ _).mono
          fun result final ⟨final_quiet, same⟩ _ => ?_
        rw [same, absent rfl, (withdrawn_quiet.trans final_quiet).observedService]
        exact iff_of_false (fun present => present rfl) still_unobserved
    case isFalse => exact ⟨seen_safe, by rintro ⟨⟩⟩

theorem safe_updateExport (safe : cluster.Safe r namespace_ name) {finalizers : List Str}
    {object : Option HeldExport}
    (applied : (Write.update held finalizers held.body).apply cluster.export_ = some object)
    (finalized : cluster.published r namespace_ name ≠ none → serviceExportFinalizer ∈ finalizers) :
    ({ cluster with export_ := object } : ExportCluster).Safe r namespace_ name := by
  obtain ⟨stored, rfl⟩ := Write.apply_update_eq_some.mp applied
  refine ⟨?_, safe.service_named, safe.plain, fun published => ?_⟩
  · intro other present
    have body_eq : other.body = held.body := by
      rw [Held.update] at present
      split at present
      case isTrue => cases present
      case isFalse =>
        obtain rfl := Option.some.inj present
        rfl
    rw [body_eq]
    exact safe.export_named held stored
  · have finalizer := finalized published
    refine ⟨⟨finalizers, held.deleting, held.body, fun _ => ne_nil_of_mem finalizer⟩, ?_, finalizer⟩
    exact dif_neg fun gone => ne_nil_of_mem finalizer gone.2

theorem guarantees_updateExport (holds : ExportCluster → Prop)
    (stable : (exportWorld r namespace_ name).Stable holds) (safe : cluster.Safe r namespace_ name)
    (start : holds cluster) {finalizers : List Str}
    (finalized : ∀ seen : ExportCluster, holds seen → seen.published r namespace_ name ≠ none →
      serviceExportFinalizer ∈ finalizers) (failure : Error Str → Str) :
    Guarantees r namespace_ name (fun _ after => Quiet log after.2)
      (.call (.updateExport (.update held finalizers held.body)) fun
        | .ok () => pure (Except.ok ())
        | .error error => pure (Except.error (failure error))) cluster log := by
  refine Ensures.of_logged_call (stable_safe.and stable) (fun _ => And.left) ?_ ⟨safe, start⟩
  rintro seen answer after ⟨seen_safe, seen_holds⟩ answers
  have carried_safe : ∀ {value : Unit},
      ExportCall.Carried (.updateExport (.update held finalizers held.body)) seen value after →
      after.Safe r namespace_ name := by
    rintro value ⟨object, applied, rfl⟩
    exact safe_updateExport seen_safe applied (finalized seen seen_holds)
  have after_safe : after.Safe r namespace_ name := by
    rcases answers.effect with rfl | ⟨_, carried⟩
    · exact seen_safe
    · exact carried_safe carried
  cases answer <;> exact ⟨after_safe, Quiet.cons rfl (Quiet.refl _)⟩

theorem guarantees_reconcileDeletion (safe : cluster.Safe r namespace_ name)
    (named : held.body.namespace_ = namespace_ ∧ held.body.name = name) :
    Guarantees r namespace_ name (fun _ after => Quiet log after.2) (r.reconcileDeletion held)
      cluster log := by
  rw [ServiceExportReconciler.reconcileDeletion, named.1, named.2]
  split
  case isTrue =>
    refine Ensures.bind ((guarantees_withdraw safe).with_always.mono
      fun result withdrawn done => ?_)
    obtain ⟨withdrawn_safe, withdrawn_quiet, absent⟩ := done
    cases result with
    | error _ => exact ⟨withdrawn_safe, withdrawn_quiet⟩
    | ok _ =>
      refine (guarantees_updateExport _ (stable_published none) withdrawn_safe (absent rfl)
        (fun seen gone published => absurd gone published)
        fun error => "removing finalizer: " ++ error.text).mono
        fun result final quiet => withdrawn_quiet.trans quiet
  case isFalse => exact ⟨safe, Quiet.refl _⟩

/-- What holds when a reconciliation returns. -/
def Reconciled (r : ServiceExportReconciler) (namespace_ name : Str) (result : Except Str Unit)
    (after : ExportCluster × List ExportExchange) : Prop :=
  result = .ok () → ObservedLive after.2 →
    (after.1.published r namespace_ name ≠ none ↔ ObservedService after.2)

theorem guarantees_reconcile (safe : cluster.Safe r namespace_ name) :
    Guarantees r namespace_ name (Reconciled r namespace_ name) r.reconcile cluster [] := by
  refine Ensures.of_logged_call stable_safe (fun _ => id) ?_ safe
  intro seen answer after seen_safe answers
  -- What was observed is decided by the first answer.
  have observed : ∀ {log : List ExportExchange}, Quiet [⟨.getExport, answer⟩] log →
      ObservedLive log → ∃ held : HeldExport, answer = .ok held ∧ held.deleting = false ∧
        serviceExportFinalizer ∈ held.finalizers := by
    rintro log quiet ⟨held, mem, live, finalizer⟩
    have first := quiet.mem mem rfl
    rw [mem_singleton, Sigma.mk.injEq] at first
    exact ⟨held, (eq_of_heq first.2).symm, live, finalizer⟩
  obtain ⟨held, rfl, found, rfl⟩ | ⟨error, rfl, -, effect⟩ := answers
  · have named := seen_safe.export_named held found
    dsimp only
    split
    case isTrue deleting =>
      refine (guarantees_reconcileDeletion seen_safe named).mono fun result final quiet _ live => ?_
      obtain ⟨other, same, undeleted, -⟩ := observed quiet live
      obtain rfl := Except.ok.inj same
      rw [undeleted] at deleting
      cases deleting
    case isFalse =>
      split
      case isTrue missing =>
        refine (guarantees_updateExport (fun _ => True) (fun _ _ _ _ => trivial) seen_safe trivial
          (fun _ _ _ => mem_append_right _ mem_cons_self)
          fun error => "adding finalizer: " ++ error.text).mono
            fun result final quiet _ live => ?_
        obtain ⟨other, same, -, finalizer⟩ := observed quiet live
        obtain rfl := Except.ok.inj same
        exact absurd finalizer missing
      case isFalse present =>
        rw [not_not] at present
        refine (guarantees_reconcileExport seen_safe ⟨held, found, present⟩ ?_ named).mono
          fun result final done success _ => done success
        rintro ⟨svc, mem⟩
        rw [nil_append, mem_singleton, Sigma.mk.injEq] at mem
        cases mem.1
  · have unchanged : after = seen := effect.elim id (Exists.elim · fun _ => And.right)
    subst unchanged
    dsimp only
    split
    case isTrue =>
      refine ⟨seen_safe, fun _ live => ?_⟩
      obtain ⟨held, same, -⟩ := observed (Quiet.refl _) live
      cases same
    case isFalse => exact ⟨seen_safe, by rintro ⟨⟩⟩

end DatawerxMesh.Controllers
