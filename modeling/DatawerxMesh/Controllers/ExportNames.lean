import DatawerxMesh.Controllers.ExportSafety
import DatawerxMesh.Library.Frame

/-!
# EndpointExports of other clusters

The EndpointExports of several clusters are mirrored into one namespace, under names that join the
cluster ID and the service name with a dash.
-/

namespace DatawerxMesh.Controllers

open Go Program ApiServer Joining DatawerxMesh.Dns DatawerxMesh.Topology

/-- One cluster ID is the other one with the front of the service name behind it. -/
def Shifted (c₁ s₁ c₂ s₂ : Str) : Prop :=
  (∃ mid, c₂ = c₁ ++ "-" ++ mid ∧ s₁ = mid ++ "-" ++ s₂) ∨
    ∃ mid, c₁ = c₂ ++ "-" ++ mid ∧ s₂ = mid ++ "-" ++ s₁

theorem endpointExportName_eq_iff {c₁ c₂ : Str} (safe₁ : DnsSafe c₁) (safe₂ : DnsSafe c₂)
    (different : c₁ ≠ c₂) (s₁ s₂ : Str) :
    endpointExportName c₁ s₁ = endpointExportName c₂ s₂ ↔ Shifted c₁ s₁ c₂ s₂ := by
  have joined (left right : Str) : left ++ "-" ++ right = left ++ 45 :: right := by
    rw [List.append_assoc]
    rfl
  simp only [endpointExportName, Shifted, sanitizeName_of_dnsSafe safe₁,
    sanitizeName_of_dnsSafe safe₂, joined]
  rw [append_cons_eq_iff]
  exact or_iff_right fun same => different same.1

/-- No run changes the EndpointExport of a name, whatever others do elsewhere. -/
abbrev SparesEndpoint {α : Type} (key : Str × Str) (script : ExportScript α)
    (cluster : ExportCluster) : Prop :=
  World.Spares (fun call : ExportCall => Answers call.Carried call.Missing)
    (fun seen => seen.endpoints.find key) script cluster

/-- The call reads or writes the EndpointExport of a name. -/
def ExportCall.Concerns (key : Str × Str) : ExportCall → Prop
  | getEndpoint other | writeEndpoint other _ => other = key
  | _ => False

theorem find_of_concerns {key other : Str × Str} (differs : key ≠ other) {call : ExportCall}
    (concerns : call.Concerns key) {before after : ExportCluster} {answer : call.Answer}
    (answers : Answers call.Carried call.Missing before answer after) :
    after.endpoints.find other = before.endpoints.find other := by
  rcases answers.effect with rfl | ⟨value, carried⟩
  · rfl
  · cases call with
    | getEndpoint read => rw [carried.2]
    | writeEndpoint written request =>
      obtain ⟨object, -, rfl⟩ := carried
      obtain rfl : written = key := concerns
      rw [Store.find_put, Function.update_of_ne differs.symm]
    | getExport => exact concerns.elim
    | updateExport => exact concerns.elim
    | patchStatus => exact concerns.elim
    | getService => exact concerns.elim
    | listSlices => exact concerns.elim

section Effects

variable {r : ServiceExportReconciler} {namespace_ name : Str} {cluster : ExportCluster}
  {key : Str × Str}

theorem makes_withdraw :
    (r.withdrawEndpointExport namespace_ name).Makes
      (ExportCall.Concerns (r.endpointKey namespace_ name)) := by
  refine ⟨rfl, fun answer => ?_⟩
  cases answer with
  | ok _ => exact trivial
  | error error =>
    dsimp only
    split
    · exact trivial
    · exact trivial

theorem makes_publish (svc : Service) (endpoint : ExportedEndpoint) (exportedAtUnix : Int) :
    (r.publishEndpointExport svc endpoint exportedAtUnix).Makes
      (ExportCall.Concerns (r.endpointKey svc.namespace_ svc.name)) := by
  refine Script.Makes.bind (Script.Makes.createOrUpdate (Script.makes_perform rfl)
    (Script.makes_perform rfl) fun _ => Script.makes_perform rfl) fun result => ?_
  cases result <;> exact trivial

theorem sparesEndpoint_of_makes {α : Type} {own : Str × Str} (differs : own ≠ key)
    {script : ExportScript α} (makes : script.Makes (ExportCall.Concerns own)) :
    SparesEndpoint key script cluster :=
  World.spares_of_makes (fun _ _ _ _ concerns same answers =>
    (find_of_concerns differs concerns answers).trans same) makes

/-- The cluster with another EndpointExport under a name. -/
def ExportCluster.putEndpoint (cluster : ExportCluster) (key : Str × Str)
    (object : Option (Held Str EndpointExportSpec)) : ExportCluster :=
  { cluster with endpoints := cluster.endpoints.put key object }

theorem not_spares_of_put {α : Type} {script : ExportScript α} {value : α}
    {object : Option (Held Str EndpointExportSpec)}
    (returns : (World.sparing (fun call : ExportCall => Answers call.Carried call.Missing)
      fun seen => seen.endpoints.find key).Returns script cluster value
        (cluster.putEndpoint key object))
    (differs : object ≠ cluster.endpoints.find key) : ¬ SparesEndpoint key script cluster := by
  intro spares
  have kept := spares.returns returns
  rw [ExportCluster.putEndpoint, Store.find_put, Function.update_self] at kept
  exact differs kept

theorem not_spares_withdraw {held : Held Str EndpointExportSpec}
    (found : cluster.endpoints.find (r.endpointKey namespace_ name) = some held)
    (live : held.deleting = false) :
    ¬ SparesEndpoint (r.endpointKey namespace_ name) (r.withdrawEndpointExport namespace_ name)
      cluster := by
  refine not_spares_of_put (.call .refl (.inl ⟨(), rfl, held.requestDelete,
    Write.apply_delete_eq_some.mpr ⟨held, found, rfl⟩, rfl⟩) (.done (Except.ok ()) _)) ?_
  rw [found]
  intro kept
  rw [(Held.requestDelete_eq_some kept).1] at live
  cases live

/-- A publication replaces the EndpointExport of another cluster. -/
theorem not_spares_publish {held : Held Str EndpointExportSpec} (svc : Service)
    (found : cluster.endpoints.find (r.endpointKey svc.namespace_ svc.name) = some held)
    (foreign : held.body.clusterID ≠ r.clusterID) (endpoint : ExportedEndpoint)
    (exportedAtUnix : Int) :
    ¬ SparesEndpoint (r.endpointKey svc.namespace_ svc.name)
      (r.publishEndpointExport svc endpoint exportedAtUnix) cluster := by
  have changes : r.exportedSpec svc endpoint exportedAtUnix ≠ held.body := fun same =>
    foreign (congrArg EndpointExportSpec.clusterID same).symm
  have stored : (Write.update held held.finalizers
      (r.exportedSpec svc endpoint exportedAtUnix)).apply (some held) =
      some (some (held.withBody (r.exportedSpec svc endpoint exportedAtUnix))) := by
    rw [← Held.update_finalizers]
    exact Write.apply_update_eq_some.mpr ⟨rfl, rfl⟩
  refine not_spares_of_put (World.Returns.bind (World.returns_update changes
    (World.returns_perform .refl (.inl ⟨held, rfl, found, rfl⟩))
    (World.returns_perform .refl (.inl ⟨(), rfl, _, found ▸ stored, rfl⟩)))
    (.done (Except.ok ()) _)) ?_
  rw [found]
  intro kept
  exact changes (congrArg Held.body (Option.some.inj kept))

end Effects

/-- The publication and the withdrawal of one cluster spare the EndpointExport of another one
exactly when no front of a service name is shifted between them, which is also when the names
differ. -/
theorem exports_isolated_iff (c₁ c₂ namespace_ s₁ s₂ : Str) (safe₁ : DnsSafe c₁)
    (safe₂ : DnsSafe c₂) (different : c₁ ≠ c₂) (cluster : ExportCluster)
    (held : Held Str EndpointExportSpec)
    (found : cluster.published ⟨c₂⟩ namespace_ s₂ = some held) (owned : held.body.clusterID = c₂)
    (live : held.deleting = false) (svc : Service) (placed : svc.namespace_ = namespace_)
    (named : svc.name = s₁) (endpoint : ExportedEndpoint) (exportedAtUnix : Int) :
    (SparesEndpoint (ServiceExportReconciler.endpointKey ⟨c₂⟩ namespace_ s₂)
        (ServiceExportReconciler.publishEndpointExport ⟨c₁⟩ svc endpoint exportedAtUnix) cluster ↔
      ¬ Shifted c₁ s₁ c₂ s₂) ∧
    (SparesEndpoint (ServiceExportReconciler.endpointKey ⟨c₂⟩ namespace_ s₂)
        (ServiceExportReconciler.withdrawEndpointExport ⟨c₁⟩ namespace_ s₁) cluster ↔
      ¬ Shifted c₁ s₁ c₂ s₂) ∧
    (endpointExportName c₁ s₁ ≠ endpointExportName c₂ s₂ ↔ ¬ Shifted c₁ s₁ c₂ s₂) := by
  subst placed named
  rw [← endpointExportName_eq_iff safe₁ safe₂ different]
  by_cases same : endpointExportName c₁ svc.name = endpointExportName c₂ s₂
  · -- The two clusters use one object.
    have key_eq : ServiceExportReconciler.endpointKey ⟨c₂⟩ svc.namespace_ s₂ =
        ServiceExportReconciler.endpointKey ⟨c₁⟩ svc.namespace_ svc.name :=
      congrArg (Prod.mk svc.namespace_) same.symm
    rw [ExportCluster.published, key_eq] at found
    have foreign : held.body.clusterID ≠ c₁ := fun own => different (own.symm.trans owned)
    rw [key_eq]
    refine ⟨iff_of_false ?_ (not_not.mpr same), iff_of_false ?_ (not_not.mpr same), Iff.rfl⟩
    · exact not_spares_publish svc found foreign endpoint exportedAtUnix
    · exact not_spares_withdraw found live
  · have differs : ServiceExportReconciler.endpointKey ⟨c₁⟩ svc.namespace_ svc.name ≠
        ServiceExportReconciler.endpointKey ⟨c₂⟩ svc.namespace_ s₂ :=
      fun key_eq => same (congrArg Prod.snd key_eq)
    refine ⟨iff_of_true ?_ same, iff_of_true ?_ same, Iff.rfl⟩
    · exact sparesEndpoint_of_makes differs (makes_publish svc endpoint exportedAtUnix)
    · exact sparesEndpoint_of_makes differs makes_withdraw

/-- A Service of the given name. -/
def servedAs (name : Str) : Service := ⟨"prod", name, "10.96.0.7", ["10.96.0.7"], []⟩

/-- A cluster into which the EndpointExport of another cluster is mirrored. -/
def mirroring (clusterID name : Str) : ExportCluster :=
  let owner : ServiceExportReconciler := ⟨clusterID⟩
  let spec := owner.exportedSpec (servedAs name) (buildExportedEndpoint clusterID (servedAs name)) 5
  ⟨none, none, (∅ : Store (Str × Str) Str EndpointExportSpec).put
    (owner.endpointKey "prod" name) (some (.create [] spec))⟩

theorem published_mirroring (clusterID name : Str) :
    ∃ held, (mirroring clusterID name).published ⟨clusterID⟩ "prod" name = some held ∧
      held.body.clusterID = clusterID ∧ held.deleting = false := by
  refine ⟨.create [] (ServiceExportReconciler.exportedSpec ⟨clusterID⟩ (servedAs name)
    (buildExportedEndpoint clusterID (servedAs name)) 5), ?_, rfl, rfl⟩
  rw [ExportCluster.published, mirroring, Store.find_put, Function.update_self]

theorem dnsSafe_samples : DnsSafe "a" ∧ DnsSafe "a-b" ∧ DnsSafe "b" :=
  ⟨⟨List.all_eq_true.mp (by decide), by decide, by decide, by decide, by decide⟩,
    ⟨List.all_eq_true.mp (by decide), by decide, by decide, by decide, by decide⟩,
    ⟨List.all_eq_true.mp (by decide), by decide, by decide, by decide, by decide⟩⟩

/-- The exports of two clusters for services of one name are separate. -/
theorem exports_isolated_web :
    SparesEndpoint ("prod", "b-web")
      (ServiceExportReconciler.withdrawEndpointExport ⟨"a"⟩ "prod" "web")
      (mirroring "b" "web") := by
  obtain ⟨held, found, owned, live⟩ := published_mirroring "b" "web"
  refine (exports_isolated_iff "a" "b" "prod" "web" "web"
    dnsSafe_samples.1 dnsSafe_samples.2.2 (by decide) _ held found owned live (servedAs "web")
    rfl rfl (buildExportedEndpoint "a" (servedAs "web")) 5).2.1.mpr ?_
  rintro (⟨mid, absurd_eq, -⟩ | ⟨mid, absurd_eq, -⟩)
  · exact absurd (List.cons.inj absurd_eq).1 (by decide)
  · exact absurd (List.cons.inj absurd_eq).1 (by decide)

/-- Cluster `a` with service `b-c` and cluster `a-b` with service `c` use one object, which the
former overwrites and deletes. -/
theorem exports_share_object :
    DnsSafe "a" ∧ DnsSafe "a-b" ∧
      endpointExportName "a" "b-c" = "a-b-c" ∧
      endpointExportName "a-b" "c" = "a-b-c" ∧
      ¬ SparesEndpoint ("prod", "a-b-c")
        (ServiceExportReconciler.publishEndpointExport ⟨"a"⟩ (servedAs "b-c")
          (buildExportedEndpoint "a" (servedAs "b-c")) 7)
        (mirroring "a-b" "c") ∧
      ¬ SparesEndpoint ("prod", "a-b-c")
        (ServiceExportReconciler.withdrawEndpointExport ⟨"a"⟩ "prod" "b-c")
        (mirroring "a-b" "c") := by
  obtain ⟨held, found, owned, live⟩ := published_mirroring "a-b" "c"
  have first : endpointExportName "a" "b-c" = "a-b-c" := by decide
  have second : endpointExportName "a-b" "c" = "a-b-c" := by decide
  rw [ExportCluster.published, ServiceExportReconciler.endpointKey, second, ← first] at found
  refine ⟨dnsSafe_samples.1, dnsSafe_samples.2.1, first, second, ?_, ?_⟩
  · rw [← first]
    refine not_spares_publish (servedAs "b-c") found ?_ _ 7
    rw [owned]
    decide
  · rw [← first]
    exact not_spares_withdraw found live

end DatawerxMesh.Controllers
