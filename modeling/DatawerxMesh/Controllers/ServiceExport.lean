import DatawerxMesh.Dns.Aggregate
import DatawerxMesh.Library.ApiObject
import DatawerxMesh.Topology.NameCollisions

/-!
# Publishing a service

`pkg/controllers/serviceexport_controller.go`: a ServiceExport is published as an EndpointExport,
and a finalizer keeps it until that is withdrawn.
-/

namespace DatawerxMesh.Controllers

open Go Program ApiServer DatawerxMesh.Dns DatawerxMesh.Topology

/-- The status of a condition. -/
inductive ConditionStatus where
  | true_
  | false_
  | unknown
  deriving DecidableEq

/-- `metav1.Condition`, without the time of the last transition. -/
structure Condition where
  type : Str
  status : ConditionStatus
  reason : Str
  message : Str
  observedGeneration : Int
  deriving DecidableEq

/-- `ServiceExport`, which has no spec. -/
structure ServiceExport where
  namespace_ : Str
  name : Str
  generation : Int
  creationTimestamp : Int
  conditions : List Condition
  deriving DecidableEq

/-- A ServiceExport as the API server holds it. -/
abbrev HeldExport := Held Str ServiceExport

/-- The finalizer that delays deletion. -/
def serviceExportFinalizer : Str := "networking.datawerx.io/serviceexport-cleanup"

/-- The type of the condition. -/
def serviceExportValid : Str := "Valid"

/-- `apimeta.SetStatusCondition`: the condition of the same type is replaced. -/
def setStatusCondition (conditions : List Condition) (desired : Condition) : List Condition :=
  if conditions.any fun condition => condition.type == desired.type then
    conditions.map fun condition => if condition.type = desired.type then desired else condition
  else conditions ++ [desired]

/-- What `Reconcile` calls.  An EndpointExport is named by its namespace and name. -/
inductive ExportCall where
  | getExport
  | updateExport (request : Write Str ServiceExport)
  | patchStatus (conditions : List Condition)
  | getService
  | listSlices (namespace_ service : Str)
  | getEndpoint (key : Str × Str)
  | writeEndpoint (key : Str × Str) (request : Write Str EndpointExportSpec)

/-- What a call returns. -/
abbrev ExportCall.Value : ExportCall → Type
  | getExport => HeldExport
  | getService => Service
  | listSlices _ _ => List EndpointSlice
  | getEndpoint _ => Held Str EndpointExportSpec
  | updateExport _ | patchStatus _ | writeEndpoint _ _ => Unit

/-- The answer to a call. -/
abbrev ExportCall.Answer (call : ExportCall) : Type := Except (Error Str) call.Value

/-- A program of calls. -/
abbrev ExportScript := Script ExportCall ExportCall.Answer

/-- The name that a cluster publishes under. -/
def endpointExportName (clusterID serviceName : Str) : Str :=
  sanitizeName clusterID ++ "-" ++ serviceName

/-- The reconciler of one cluster. -/
structure ServiceExportReconciler where
  clusterID : Str

namespace ServiceExportReconciler

variable (r : ServiceExportReconciler)

/-- Where a service is published. -/
def endpointKey (namespace_ serviceName : Str) : Str × Str :=
  (namespace_, endpointExportName r.clusterID serviceName)

/-- A publication that is missing counts as withdrawn. -/
def withdrawEndpointExport (namespace_ serviceName : Str) : ExportScript (Except Str Unit) :=
  .call (.writeEndpoint (r.endpointKey namespace_ serviceName) .delete) fun
  | .ok () => pure (.ok ())
  | .error error =>
    if error.notFound then pure (.ok ())
    else pure (.error ("withdrawing EndpointExport for " ++ namespace_ ++ "/" ++
      serviceName ++ ": " ++ error.text))

/-- What is published. -/
def exportedSpec (svc : Service) (endpoint : ExportedEndpoint) (exportedAtUnix : Int) :
    EndpointExportSpec where
  clusterID := r.clusterID
  serviceNamespace := svc.namespace_
  serviceName := svc.name
  type := endpoint.type
  exportedAtUnix := exportedAtUnix
  ports := endpoint.ports
  ips := endpoint.ips

/-- The spec before the first write. -/
def emptyEndpoint : EndpointExportSpec := ⟨[], [], [], .clusterSetIP, 0, [], []⟩

/-- The publication is created or brought up to date. -/
def publishEndpointExport (svc : Service) (endpoint : ExportedEndpoint) (exportedAtUnix : Int) :
    ExportScript (Except Str Unit) := do
  let key := r.endpointKey svc.namespace_ svc.name
  match ← createOrUpdate (Script.perform (ExportCall.getEndpoint key))
      (fun request => Script.perform (ExportCall.writeEndpoint key request)) emptyEndpoint
      (fun _ => r.exportedSpec svc endpoint exportedAtUnix) with
  | .ok () => pure (.ok ())
  | .error error => pure (.error ("publishing EndpointExport for " ++ svc.namespace_ ++
      "/" ++ svc.name ++ ": " ++ error.text))

/-- `setValidCondition`: an unchanged condition is not written. -/
def setValidCondition (export_ : ServiceExport) (ok : Bool) (reason message : Str) :
    ExportScript (Except Str Unit) :=
  let desired : Condition := ⟨serviceExportValid, if ok then .true_ else .false_, reason, message,
    export_.generation⟩
  if export_.conditions.find? (fun condition => condition.type == serviceExportValid) =
      some desired then pure (.ok ())
  else
    .call (.patchStatus (setStatusCondition export_.conditions desired)) fun
    | .ok () => pure (.ok ())
    | .error error => pure (.error ("updating ServiceExport status: " ++ error.text))

/-- The addresses of the ready endpoints. -/
def headlessEndpointIPs (svc : Service) : ExportScript (Except Str (List Str)) :=
  .call (.listSlices svc.namespace_ svc.name) fun
  | .ok slices => pure (.ok (readyEndpointIPs slices))
  | .error error => pure (.error ("listing EndpointSlices for " ++ svc.namespace_ ++ "/" ++
      svc.name ++ ": " ++ error.text))

/-- The endpoint of a Service with the addresses of a headless one. -/
def exportedEndpoint (svc : Service) : ExportScript (Except Str ExportedEndpoint) :=
  let endpoint := buildExportedEndpoint r.clusterID svc
  if serviceIsHeadless svc then do
    match ← headlessEndpointIPs svc with
    | .ok ips => pure (.ok { endpoint with ips })
    | .error error => pure (.error error)
  else pure (.ok endpoint)

/-- A Service is published, and withdrawn when it is gone. -/
def reconcileExport (export_ : ServiceExport) : ExportScript (Except Str Unit) :=
  .call .getService fun
  | .error error =>
    if error.notFound then do
      match ← r.withdrawEndpointExport export_.namespace_ export_.name with
      | .error error => pure (.error error)
      | .ok () =>
        setValidCondition export_ false "ServiceNotFound"
          "no Service with this name exists in the namespace"
    else pure (.error ("fetching referenced Service: " ++ error.text))
  | .ok svc => do
      match ← r.exportedEndpoint svc with
      | .error error => pure (.error error)
      | .ok endpoint =>
        match ← r.publishEndpointExport svc endpoint export_.creationTimestamp with
        | .error error => pure (.error error)
        | .ok () =>
          setValidCondition export_ true "Exported"
            ("exported as " ++ endpoint.type.text ++ " with " ++
              itoa endpoint.ports.length ++ " port(s)")

/-- The publication goes before the finalizer. -/
def reconcileDeletion (held : HeldExport) : ExportScript (Except Str Unit) :=
  if serviceExportFinalizer ∈ held.finalizers then do
    match ← r.withdrawEndpointExport held.body.namespace_ held.body.name with
    | .error error => pure (.error error)
    | .ok () =>
      let finalizers := held.finalizers.filter (· ≠ serviceExportFinalizer)
      .call (.updateExport (.update held finalizers held.body)) fun
      | .ok () => pure (.ok ())
      | .error error => pure (.error ("removing finalizer: " ++ error.text))
  else pure (.ok ())

/-- One call of the reconciler. -/
def reconcile : ExportScript (Except Str Unit) :=
  .call .getExport fun
  | .error error =>
    if error.notFound then pure (.ok ())
    else pure (.error ("fetching ServiceExport: " ++ error.text))
  | .ok held =>
    if held.deleting then r.reconcileDeletion held
    else if serviceExportFinalizer ∉ held.finalizers then
      let finalizers := held.finalizers ++ [serviceExportFinalizer]
      .call (.updateExport (.update held finalizers held.body)) fun
      | .ok () => pure (.ok ())
      | .error error => pure (.error ("adding finalizer: " ++ error.text))
    else r.reconcileExport held.body

end ServiceExportReconciler

end DatawerxMesh.Controllers
