import DatawerxMesh.Controllers.PeerSources
import DatawerxMesh.NatPlane.Ruleset

/-!
# The service reconciler

`pkg/controllers/servicenat_controller.go`: exported addresses become backends as they are, also
where the peer reconciler routes them under virtual ones.
-/

namespace DatawerxMesh.Controllers

open Go Addressing Program NatPlane DatawerxMesh.Topology List

/-- The key under which `BuildServiceDNAT` joins exports and imports. -/
def serviceKey (serviceNamespace serviceName : Str) : Str :=
  serviceNamespace ++ "/" ++ serviceName

/-- An export counts in `BuildServiceDNAT`. -/
def EndpointExport.Counts (downClusters : Str → Bool) (e : EndpointExport) : Prop :=
  e.spec.type = .clusterSetIP ∧ downClusters e.spec.clusterID = false

instance (downClusters : Str → Bool) (e : EndpointExport) :
    Decidable (EndpointExport.Counts downClusters e) :=
  inferInstanceAs (Decidable (_ ∧ _))

/-- The `backends` map of `BuildServiceDNAT`. -/
def backendsOf (exports : List EndpointExport) (downClusters : Str → Bool) (key : Str) : List Str :=
  (exports.filter fun e => decide (EndpointExport.Counts downClusters e) &&
    serviceKey e.spec.serviceNamespace e.spec.serviceName == key).flatMap fun e => e.spec.ips

/-- The services to translate. -/
def buildServiceDNAT (imports : List ServiceImport) (exports : List EndpointExport)
    (downClusters : Str → Bool) : List ServiceDNAT :=
  imports.filterMap fun si =>
    match si.spec.type, si.spec.ips with
    | .clusterSetIP, vip :: _ =>
      let backends := backendsOf exports downClusters (serviceKey si.namespace_ si.name)
      if backends = [] then none
      else some {
        namespace_ := si.namespace_, name := si.name, vip
        ports := si.spec.ports.map fun p => ⟨toLower p.protocol, p.port⟩
        backends }
    | _, _ => none

section Backends

variable {imports : List ServiceImport} {exports : List EndpointExport} {downClusters : Str → Bool}

theorem mem_backendsOf {key ip : Str} :
    ip ∈ backendsOf exports downClusters key ↔
      ∃ e ∈ exports, EndpointExport.Counts downClusters e ∧
        serviceKey e.spec.serviceNamespace e.spec.serviceName = key ∧ ip ∈ e.spec.ips := by
  simp [backendsOf, and_assoc]

theorem mem_buildServiceDNAT {s : ServiceDNAT} :
    s ∈ buildServiceDNAT imports exports downClusters ↔
      ∃ si ∈ imports, si.spec.type = .clusterSetIP ∧ si.spec.ips.head? = some s.vip ∧
        s.namespace_ = si.namespace_ ∧ s.name = si.name ∧
        s.ports = si.spec.ports.map (fun p => ⟨toLower p.protocol, p.port⟩) ∧
        s.backends = backendsOf exports downClusters (serviceKey si.namespace_ si.name) ∧
        s.backends ≠ [] := by
  obtain ⟨ns, name, vip, ports, backends⟩ := s
  rw [buildServiceDNAT, mem_filterMap]
  refine exists_congr fun si => and_congr_right fun _ => ?_
  cases type_eq : si.spec.type with
  | headless => simp
  | clusterSetIP =>
    cases ips_eq : si.spec.ips with
    | nil => simp
    | cons first rest =>
      simp only [List.head?_cons, Option.some.injEq, true_and]
      split
      case isTrue empty =>
        simp only [reduceCtorEq, false_iff, not_and]
        rintro - - - - rfl
        exact absurd empty
      case isFalse nonempty =>
        simp only [Option.some.injEq, ServiceDNAT.mk.injEq]
        constructor
        · rintro ⟨rfl, rfl, rfl, rfl, rfl⟩
          exact ⟨rfl, rfl, rfl, rfl, rfl, nonempty⟩
        · rintro ⟨rfl, rfl, rfl, rfl, rfl, -⟩
          exact ⟨rfl, rfl, rfl, rfl, rfl⟩

end Backends

/-- The planned rules rewrite to an address on behalf of the cluster of an export. -/
def RewritesTo (imports : List ServiceImport) (exports : List EndpointExport)
    (downClusters : Str → Bool) (e : EndpointExport) (ip : Str) : Prop :=
  e ∈ exports ∧ EndpointExport.Counts downClusters e ∧ ip ∈ e.spec.ips ∧
    ∃ x ∈ expansions (buildServiceDNAT imports exports downClusters),
      serviceKey x.service.namespace_ x.service.name =
        serviceKey e.spec.serviceNamespace e.spec.serviceName ∧ ip ∈ x.backends ∧
      x.dnatRule ip ∈ (buildRuleset (buildServiceDNAT imports exports downClusters)).rules

/-- An import gives the service of an export a virtual address and a port. -/
def Imported (imports : List ServiceImport) (e : EndpointExport) : Prop :=
  ∃ si ∈ imports, si.spec.type = .clusterSetIP ∧ (∃ vip ≠ [], si.spec.ips.head? = some vip) ∧
    si.spec.ports ≠ [] ∧ serviceKey si.namespace_ si.name =
      serviceKey e.spec.serviceNamespace e.spec.serviceName

theorem rewritesTo_iff {imports : List ServiceImport} {exports : List EndpointExport}
    {downClusters : Str → Bool} {e : EndpointExport} {ip : Str} :
    RewritesTo imports exports downClusters e ip ↔
      e ∈ exports ∧ EndpointExport.Counts downClusters e ∧ ip ∈ e.spec.ips ∧ ip ≠ [] ∧
        Imported imports e := by
  constructor
  · rintro ⟨mem, counts, in_ips, x, expanded, same_key, in_backends, -⟩
    obtain ⟨in_services, vip_ne, -, in_ports, backends_eq⟩ := mem_expansions.mp expanded
    obtain ⟨si, in_imports, type_eq, head_eq, ns_eq, name_eq, ports_eq, -⟩ :=
      mem_buildServiceDNAT.mp in_services
    rw [backends_eq] at in_backends
    have ports_ne : si.spec.ports ≠ [] := by
      have some_port := sortedPorts_ne_nil.mp (ne_nil_of_mem in_ports)
      rw [ports_eq] at some_port
      simpa using some_port
    refine ⟨mem, counts, in_ips, (mem_uniqueSortedStrings.mp in_backends).2, si, in_imports,
      type_eq, ⟨_, vip_ne, head_eq⟩, ports_ne, ?_⟩
    rw [← same_key, ns_eq, name_eq]
  · rintro ⟨mem, counts, in_ips, ip_ne, si, in_imports, type_eq, ⟨vip, vip_ne, head_eq⟩,
      ports_ne, same_key⟩
    have backend : ip ∈ backendsOf exports downClusters (serviceKey si.namespace_ si.name) :=
      mem_backendsOf.mpr ⟨e, mem, counts, same_key.symm, in_ips⟩
    let s : ServiceDNAT := {
      namespace_ := si.namespace_, name := si.name, vip
      ports := si.spec.ports.map fun p => ⟨toLower p.protocol, p.port⟩
      backends := backendsOf exports downClusters (serviceKey si.namespace_ si.name) }
    have backends_ne : s.backends ≠ [] := ne_nil_of_mem backend
    have in_services : s ∈ buildServiceDNAT imports exports downClusters :=
      mem_buildServiceDNAT.mpr ⟨si, in_imports, type_eq, head_eq, rfl, rfl, rfl, rfl, backends_ne⟩
    have some_port : sortedPorts s.ports ≠ [] := by
      rw [sortedPorts_ne_nil]
      simpa [s] using ports_ne
    obtain ⟨port, in_ports⟩ := exists_mem_of_ne_nil _ some_port
    have expanded : ⟨s, port, uniqueSortedStrings s.backends⟩ ∈
        expansions (buildServiceDNAT imports exports downClusters) :=
      mem_expansions.mpr ⟨in_services, vip_ne, backends_ne, in_ports, rfl⟩
    have in_backends : ip ∈ uniqueSortedStrings s.backends :=
      mem_uniqueSortedStrings.mpr ⟨backend, ip_ne⟩
    exact ⟨mem, counts, in_ips, _, expanded, same_key, in_backends,
      dnatRule_mem_rules expanded in_backends⟩

/-- An address text lies in a range text. -/
def AddressIn (ip cidr : Str) : Prop :=
  ∃ address net, parseIP ip = some address ∧ parseNet cidr = some net ∧ net.contains address = true

/-- An address text lies in a block. -/
def AddressInBlock (ip : Str) (block : Block 32) : Prop :=
  ∃ address, parseIP ip = some address ∧ (IPNet.four block).contains address = true

/-- The targets of remote clusters lie in what is routed to them, and none is a local address. -/
def TargetsRoutable (r : MeshPeerReconciler) (peers : List MeshPeer) (allowed : MeshPeer → List Str)
    (imports : List ServiceImport) (exports : List EndpointExport) (downClusters : Str → Bool) :
    Prop :=
  ∀ e ip, RewritesTo imports exports downClusters e ip → e.spec.clusterID ≠ r.clusterID →
    (∃ peer ∈ peers, peer.spec.clusterID = e.spec.clusterID ∧
      ∃ cidr ∈ allowed peer, AddressIn ip cidr) ∧
    ∀ cidr ∈ r.localCIDRs, ¬ AddressIn ip cidr

theorem MeshPeerReconciler.addressIn_allowedIPs_iff {r : MeshPeerReconciler} {peer : MeshPeer}
    {allowedIPs : List Str} (programmed : r.Programs peer allowedIPs) (ip : Str) :
    (∃ text ∈ allowedIPs, AddressIn ip text) ↔
      (∃ cidr ∈ peer.spec.allCIDRs, RoutedAsIs r.localCIDRs cidr ∧ AddressIn ip cidr) ∨
        ∃ virtual, r.AppearsUnder peer virtual ∧ AddressInBlock ip virtual := by
  have nets := parseNet_allowedIPs_iff programmed
  constructor
  · rintro ⟨text, mem, address, net, ip_eq, parsed, contains⟩
    rcases (nets net).mp ⟨text, mem, parsed⟩ with
      ⟨cidr, in_spec, as_is, cidr_eq⟩ | ⟨virtual, appears, rfl⟩
    · exact Or.inl ⟨cidr, in_spec, as_is, address, net, ip_eq, cidr_eq, contains⟩
    · exact Or.inr ⟨virtual, appears, address, ip_eq, contains⟩
  · rintro (⟨cidr, in_spec, as_is, address, net, ip_eq, parsed, contains⟩ |
      ⟨virtual, appears, address, ip_eq, contains⟩)
    · obtain ⟨text, mem, text_eq⟩ := (nets net).mpr (Or.inl ⟨cidr, in_spec, as_is, parsed⟩)
      exact ⟨text, mem, address, net, ip_eq, text_eq, contains⟩
    · obtain ⟨text, mem, text_eq⟩ := (nets _).mpr (Or.inr ⟨virtual, appears, rfl⟩)
      exact ⟨text, mem, address, _, ip_eq, text_eq, contains⟩

theorem RoutedAsIs.not_local {localCIDRs : List Str} {cidr ip : Str}
    (as_is : RoutedAsIs localCIDRs cidr) (inside : AddressIn ip cidr) :
    ∀ localCIDR ∈ localCIDRs, ¬ AddressIn ip localCIDR := by
  rintro localCIDR mem ⟨address, localNet, ip_eq, local_eq, in_local⟩
  obtain ⟨remote, remote_eq, -, disjoint⟩ := as_is
  obtain ⟨address', net, ip_eq', net_eq, in_remote⟩ := inside
  obtain rfl := Option.some.inj (ip_eq.symm.trans ip_eq')
  obtain rfl := Option.some.inj (remote_eq.symm.trans net_eq)
  have overlap := cidrsOverlap_of_contains in_remote in_local
  rw [disjoint localNet (mem_parseCIDRList.mpr ⟨localCIDR, mem, local_eq⟩)] at overlap
  cases overlap

/-- All targets are routable exactly when every exported address lies in a CIDR of its cluster that
is routed as it is, or by chance in a block under which a withheld CIDR of the cluster appears and
in no local range. -/
theorem clusterset_targets_routable_iff (r : MeshPeerReconciler) (peers : List MeshPeer)
    (allowed : MeshPeer → List Str) (programmed : ∀ peer ∈ peers, r.Programs peer (allowed peer))
    (imports : List ServiceImport) (exports : List EndpointExport) (downClusters : Str → Bool) :
    TargetsRoutable r peers allowed imports exports downClusters ↔
      ∀ e ∈ exports, e.spec.clusterID ≠ r.clusterID → EndpointExport.Counts downClusters e →
        Imported imports e → ∀ ip ∈ e.spec.ips, ip ≠ [] →
        ∃ peer ∈ peers, peer.spec.clusterID = e.spec.clusterID ∧
          ((∃ cidr ∈ peer.spec.allCIDRs, RoutedAsIs r.localCIDRs cidr ∧ AddressIn ip cidr) ∨
            (∃ virtual, r.AppearsUnder peer virtual ∧ AddressInBlock ip virtual) ∧
              ∀ cidr ∈ r.localCIDRs, ¬ AddressIn ip cidr) := by
  constructor
  · intro routable e mem remote counts imported ip in_ips ip_ne
    obtain ⟨⟨peer, listed, same_id, routed⟩, not_local⟩ :=
      routable e ip (rewritesTo_iff.mpr ⟨mem, counts, in_ips, ip_ne, imported⟩) remote
    refine ⟨peer, listed, same_id, ?_⟩
    rcases (MeshPeerReconciler.addressIn_allowedIPs_iff (programmed peer listed) ip).mp routed with
      as_is | appears
    · exact Or.inl as_is
    · exact Or.inr ⟨appears, not_local⟩
  · intro covered e ip rewrites remote
    obtain ⟨mem, counts, in_ips, ip_ne, imported⟩ := rewritesTo_iff.mp rewrites
    obtain ⟨peer, listed, same_id, either⟩ :=
      covered e mem remote counts imported ip in_ips ip_ne
    have routed_iff := MeshPeerReconciler.addressIn_allowedIPs_iff (programmed peer listed) ip
    rcases either with ⟨cidr, in_spec, as_is, inside⟩ | ⟨appears, not_local⟩
    · exact ⟨⟨peer, listed, same_id, routed_iff.mpr (Or.inl ⟨cidr, in_spec, as_is, inside⟩)⟩,
        RoutedAsIs.not_local as_is inside⟩
    · exact ⟨⟨peer, listed, same_id, routed_iff.mpr (Or.inr appears)⟩, not_local⟩

/-- The import of the web service. -/
def webImport : ServiceImport where
  namespace_ := "prod"
  name := "web"
  spec := ⟨[⟨"http", "TCP", none, 80⟩], ["241.0.0.5"], .clusterSetIP⟩
  clusters := ["cluster-b"]

/-- The export of the web service by a remote cluster. -/
def webExport (ip : Str) : EndpointExport where
  namespace_ := "prod"
  name := "cluster-b-web"
  spec := ⟨"cluster-b", "prod", "web", .clusterSetIP, 0,
    [⟨"http", "TCP", none, 80⟩], [ip]⟩

theorem webExport_imported (ip : Str) : Imported [webImport] (webExport ip) :=
  ⟨webImport, mem_cons_self, rfl, ⟨"241.0.0.5", by decide, rfl⟩, by decide, rfl⟩

theorem addressIn_of_decide {ip cidr : Str} (inside : ((parseIP ip).any fun address =>
      (parseNet cidr).any fun net => net.contains address) = true) : AddressIn ip cidr := by
  simp only [Option.any_eq_true] at inside
  obtain ⟨address, ip_eq, net, net_eq, contains⟩ := inside
  exact ⟨address, net, ip_eq, net_eq, contains⟩

theorem clusterset_targets_routable_iff_disjoint_peer :
    TargetsRoutable agentA [peerOf "cluster-b" ["10.40.0.0/16"]]
      (fun _ => ["10.40.0.0/16"]) [webImport] [webExport "10.40.7.9"] fun _ => false := by
  have programmed : ∀ peer ∈ [peerOf "cluster-b" ["10.40.0.0/16"]],
      agentA.Programs peer ["10.40.0.0/16"] := by
    rintro peer (_ | ⟨_, ⟨⟩⟩)
    rw [MeshPeerReconciler.programs_with_pool (by decide)]
    exact ⟨by decide, ⟨[], []⟩, by decide +kernel, by decide +kernel⟩
  refine (clusterset_targets_routable_iff agentA _ _ programmed _ _ _).mpr ?_
  rintro e (_ | ⟨_, ⟨⟩⟩) - - - ip (_ | ⟨_, ⟨⟩⟩) -
  have routable : str "10.40.0.0/16" ∈ (partition ["10.40.0.0/16"] agentA.localCIDRs).1 := by
    decide +kernel
  exact ⟨_, mem_cons_self, rfl, Or.inl ⟨_, mem_cons_self,
    (mem_routable_iff.mp routable).2, addressIn_of_decide (by decide +kernel)⟩⟩

/-- A backend of a cluster with the same pod range is a local address. -/
theorem clusterset_target_is_local :
    agentA.Programs (peerOf "cluster-b" ["10.244.0.0/16"]) ["172.19.0.0/16"] ∧
    AddressIn "10.244.7.9" "10.244.0.0/16" ∧
    RewritesTo [webImport] [webExport "10.244.7.9"] (fun _ => false)
      (webExport "10.244.7.9") "10.244.7.9" ∧
    ¬ TargetsRoutable agentA [peerOf "cluster-b" ["10.244.0.0/16"]]
      (fun _ => ["172.19.0.0/16"]) [webImport] [webExport "10.244.7.9"]
      fun _ => false := by
  have inside : AddressIn "10.244.7.9" "10.244.0.0/16" :=
    addressIn_of_decide (by decide +kernel)
  have rewrites : RewritesTo [webImport] [webExport "10.244.7.9"] (fun _ => false)
      (webExport "10.244.7.9") "10.244.7.9" :=
    rewritesTo_iff.mpr ⟨mem_cons_self, ⟨rfl, rfl⟩, mem_cons_self, by decide, webExport_imported _⟩
  refine ⟨agentA_programs_overlap, inside, rewrites, fun routable => ?_⟩
  exact (routable _ _ rewrites (by decide)).2 "10.244.0.0/16" mem_cons_self inside

end DatawerxMesh.Controllers
