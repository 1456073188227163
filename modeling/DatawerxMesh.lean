import DatawerxMesh.Client.RequestRuns
import DatawerxMesh.Controllers.ExportLifecycle
import DatawerxMesh.Controllers.ExportNames
import DatawerxMesh.Controllers.FailoverRules
import DatawerxMesh.Controllers.Gateway
import DatawerxMesh.Controllers.ImportConvergence
import DatawerxMesh.Controllers.KeyHandover
import DatawerxMesh.Controllers.PeerStatus
import DatawerxMesh.Controllers.PolicyEnforcement
import DatawerxMesh.Controllers.RemapScope
import DatawerxMesh.Controllers.SingleTunnel
import DatawerxMesh.Dns.Resolution
import DatawerxMesh.Dns.SlicePartition
import DatawerxMesh.Dnsserver.Agreement
import DatawerxMesh.Dnsserver.Zone
import DatawerxMesh.Ebpf.Bijection
import DatawerxMesh.Ebpf.Convergence
import DatawerxMesh.Edge.Completeness
import DatawerxMesh.Edge.Peer
import DatawerxMesh.Evidence.Reporter
import DatawerxMesh.Impact.Peer
import DatawerxMesh.Impact.Policy
import DatawerxMesh.Mesh.Acceptance
import DatawerxMesh.Meshgraph.Dot
import DatawerxMesh.NatPlane.Interference
import DatawerxMesh.Probe.Publisher
import DatawerxMesh.Reach.Agreement
import DatawerxMesh.Reach.Overlaps
import DatawerxMesh.Reach.Verdicts
import DatawerxMesh.Slo.Diagnosis
import DatawerxMesh.Sync.Foreign
import DatawerxMesh.Topology.ArrivalOrder
import DatawerxMesh.Topology.LegalNames
import DatawerxMesh.Topology.VirtualArithmetic
import DatawerxMesh.Wg.RouteBooks
