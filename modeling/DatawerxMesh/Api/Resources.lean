import DatawerxMesh.Go.Text

/-!
# Resources

The parts of `networking.datawerx.io/v1alpha1` and `multicluster.x-k8s.io/v1alpha1` that the
planners and reconcilers read and write.
-/

namespace DatawerxMesh

open Go

/-- One remote cluster to tunnel to.  The CIDR lists hold arbitrary strings. -/
structure MeshPeerSpec where
  clusterID : Str
  publicKey : Str
  endpoint : Str
  podCIDRs : List Str
  serviceCIDRs : List Str
  deriving DecidableEq

/-- `MeshPeerSpec.AllCIDRs`: pod ranges first, then service ranges. -/
def MeshPeerSpec.allCIDRs (spec : MeshPeerSpec) : List Str := spec.podCIDRs ++ spec.serviceCIDRs

/-- `MeshPeerPhase`; a fresh object has none. -/
inductive MeshPeerPhase where
  | unset
  | pending
  | connected
  | error
  deriving DecidableEq

/-- `MeshPeerStatus`, as far as the peer reconciler writes it. -/
structure MeshPeerStatus where
  phase : MeshPeerPhase
  lastHandshakeTime : Int
  message : Str
  observedGeneration : Int
  deriving DecidableEq

/-- A MeshPeer object. -/
structure MeshPeer where
  namespace_ : Str
  name : Str
  generation : Int
  spec : MeshPeerSpec
  status : MeshPeerStatus
  deriving DecidableEq

/-- `MeshPeer` with the status fields that the prober writes. -/
structure ProbedPeer extends MeshPeer where
  lastProbeAttempt : Int
  lastProbeTime : Int
  deriving DecidableEq

/-- `ServiceImportType`, which the API server restricts to two values. -/
inductive ServiceImportType where
  | clusterSetIP
  | headless
  deriving DecidableEq

/-- The value in the API. -/
def ServiceImportType.text : ServiceImportType → Str
  | clusterSetIP => "ClusterSetIP"
  | headless => "Headless"

/-- A port of a shared service. -/
structure ServicePort where
  name : Str
  protocol : Str
  appProtocol : Option Str
  port : Int
  deriving DecidableEq

/-- `ServiceImportSpec`, without the session affinity that nothing reads. -/
structure ServiceImportSpec where
  ports : List ServicePort
  ips : List Str
  type : ServiceImportType
  deriving DecidableEq

/-- `ServiceImport`; its status lists the contributing clusters. -/
structure ServiceImport where
  namespace_ : Str
  name : Str
  spec : ServiceImportSpec
  clusters : List Str
  deriving DecidableEq

/-- `EndpointExportSpec`: the contribution of one cluster to one service. -/
structure EndpointExportSpec where
  clusterID : Str
  serviceNamespace : Str
  serviceName : Str
  type : ServiceImportType
  exportedAtUnix : Int
  ports : List ServicePort
  ips : List Str
  deriving DecidableEq

/-- What one cluster contributes to a service. -/
structure EndpointExport where
  namespace_ : Str
  name : Str
  spec : EndpointExportSpec
  deriving DecidableEq

end DatawerxMesh
