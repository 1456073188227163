import DatawerxMesh.Controllers.ServiceImport
import DatawerxMesh.Controllers.ServiceNat
import DatawerxMesh.NatPlane.Operands

/-!
# Targets of imported services

`BuildServiceDNAT` gives every port of an import all the addresses of its exports, whatever their
port lists and families.
-/

namespace DatawerxMesh.Controllers

open Go NatPlane List Controllers.EndpointExport

section Expansions

variable {imports : List ServiceImport} {exports : List EndpointExport} {downClusters : Str → Bool}

/-- The backends of an import. -/
def ServiceImport.backends (exports : List EndpointExport) (downClusters : Str → Bool)
    (si : ServiceImport) : List Str :=
  backendsOf exports downClusters (serviceKey si.namespace_ si.name)

/-- The expansion of one port of an import with a virtual address. -/
def importExpansion (exports : List EndpointExport) (downClusters : Str → Bool)
    (si : ServiceImport) (vip : Str) (p : ServicePort) : Expansion where
  service := {
    namespace_ := si.namespace_, name := si.name, vip
    ports := si.spec.ports.map fun p => ⟨toLower p.protocol, p.port⟩
    backends := ServiceImport.backends exports downClusters si }
  port := PortDNAT.normal ⟨toLower p.protocol, p.port⟩
  backends := uniqueSortedStrings (ServiceImport.backends exports downClusters si)

@[simp] theorem proto_importExpansion (si : ServiceImport) (vip : Str) (p : ServicePort) :
    (importExpansion exports downClusters si vip p).proto = normalizeProto p.protocol := by
  rw [Expansion.proto, importExpansion, PortDNAT.normal, normalizeProto_normalizeProto,
    normalizeProto_toLower]

@[simp] theorem portStr_importExpansion (si : ServiceImport) (vip : Str) (p : ServicePort) :
    (importExpansion exports downClusters si vip p).portStr = itoaInt p.port := rfl

/-- An import whose rules are planned, with the virtual address that they match. -/
structure Planned (imports : List ServiceImport) (exports : List EndpointExport)
    (downClusters : Str → Bool) (si : ServiceImport) (vip : Str) : Prop where
  listed : si ∈ imports
  type : si.spec.type = .clusterSetIP
  first : si.spec.ips.head? = some vip
  address : vip ≠ []
  backed : ServiceImport.backends exports downClusters si ≠ []

theorem mem_expansions_buildServiceDNAT {x : Expansion} :
    x ∈ expansions (buildServiceDNAT imports exports downClusters) ↔
      ∃ si vip, Planned imports exports downClusters si vip ∧
        ∃ p ∈ si.spec.ports, x = importExpansion exports downClusters si vip p := by
  rw [mem_expansions, mem_buildServiceDNAT]
  constructor
  · rintro ⟨⟨si, listed, type, first, ns_eq, name_eq, ports_eq, backends_eq, backed⟩, address, -,
      in_ports, all⟩
    rw [ports_eq, mem_sortedPorts] at in_ports
    obtain ⟨q, q_mem, port_eq⟩ := in_ports
    obtain ⟨p, p_mem, rfl⟩ := mem_map.mp q_mem
    rw [backends_eq] at backed
    refine ⟨si, x.service.vip, ⟨listed, type, first, address, backed⟩, p, p_mem, ?_⟩
    obtain ⟨⟨ns, name, vip, ports, backends⟩, port, chosen⟩ := x
    simp_all [importExpansion, ServiceImport.backends]
  · rintro ⟨si, vip, planned, p, p_mem, rfl⟩
    refine ⟨⟨si, planned.listed, planned.type, planned.first, rfl, rfl, rfl, rfl, planned.backed⟩,
      planned.address, planned.backed, ?_, rfl⟩
    exact mem_sortedPorts.mpr ⟨_, mem_map_of_mem p_mem, rfl⟩

theorem rewrites_iff_planned {rs : Ruleset}
    (builds : Builds (buildServiceDNAT imports exports downClusters) rs) {proto ip : Str}
    {port : Int} :
    rs.Rewrites proto (dnatTarget ip (itoaInt port)) ↔
      ∃ si vip, Planned imports exports downClusters si vip ∧
        (∃ p ∈ si.spec.ports, p.port = port ∧ normalizeProto p.protocol = proto) ∧
        ip ∈ ServiceImport.backends exports downClusters si ∧ ip ≠ [] := by
  rw [builds.rewrites_iff]
  constructor
  · rintro ⟨x, expanded, backend, in_backends, rfl, target_eq⟩
    obtain ⟨si, vip, planned, p, p_mem, rfl⟩ := mem_expansions_buildServiceDNAT.mp expanded
    rw [portStr_importExpansion] at target_eq
    obtain ⟨rfl, rfl⟩ := dnatTarget_injective target_eq
    exact ⟨si, vip, planned, ⟨p, p_mem, rfl, (proto_importExpansion si vip p).symm⟩,
      mem_uniqueSortedStrings.mp in_backends⟩
  · rintro ⟨si, vip, planned, ⟨p, p_mem, rfl, rfl⟩, backend⟩
    refine ⟨_, mem_expansions_buildServiceDNAT.mpr ⟨si, vip, planned, p, p_mem, rfl⟩, ip,
      mem_uniqueSortedStrings.mpr backend, proto_importExpansion si vip p, ?_⟩
    rw [portStr_importExpansion]

end Expansions

/-- An export lists a port, under the protocol that the rules name. -/
def EndpointExport.Lists (e : EndpointExport) (proto : Str) (port : Int) : Prop :=
  ∃ p ∈ e.spec.ports, p.port = port ∧ normalizeProto (Dns.protocolOf p) = proto

/-- The targets for every port of a service are addresses of exports that list the port exactly if
every address of its exports is carried by an export that lists the ports of all of them. -/
theorem targets_export_port_iff (go : Runtime Dns.Site) (quote : Str → Str) (key : Dns.ServiceKey)
    (exports : List EndpointExport)
    (one_service : ∀ e ∈ exports, (endpointExportToExported e).key = key) (plan : Dns.ImportPlan)
    (planned : Dns.planServiceImport go quote
      (exports.map fun e => (endpointExportToExported e).endpoint) = some plan)
    (resolved : plan.type = .clusterSetIP) (si : ServiceImport)
    (named : si.namespace_ = key.namespace_ ∧ si.name = key.name)
    (applied : si.spec.type = plan.type ∧ si.spec.ports = plan.ports) (vip : Str)
    (first : si.spec.ips.head? = some vip) (address : vip ≠ []) (downClusters : Str → Bool)
    (rs : Ruleset) (builds : Builds (buildServiceDNAT [si] exports downClusters) rs) :
    (∀ proto port ip, rs.Rewrites proto (dnatTarget ip (itoaInt port)) →
      ∃ e ∈ exports, ip ∈ e.spec.ips ∧ Lists e proto port) ↔
    ∀ e ∈ exports, e.spec.type = .clusterSetIP → ∀ p ∈ e.spec.ports,
      ∀ e' ∈ exports, Counts downClusters e' → ∀ ip ∈ e'.spec.ips, ip ≠ [] →
        ∃ carrier ∈ exports, ip ∈ carrier.spec.ips ∧
          Lists carrier (normalizeProto (Dns.protocolOf p)) p.port := by
  have same_key : ∀ e ∈ exports, serviceKey e.spec.serviceNamespace e.spec.serviceName =
      serviceKey si.namespace_ si.name := by
    intro e mem
    rw [named.1, named.2, ← one_service e mem]
    rfl
  have ports_iff (proto : Str) (port : Int) :
      (∃ p ∈ si.spec.ports, p.port = port ∧ normalizeProto p.protocol = proto) ↔
        ∃ e ∈ exports, e.spec.type = .clusterSetIP ∧ Lists e proto port := by
    have merged := Dns.mem_ports_of_plan planned port
    simp only [mem_map, exists_exists_and_eq_and, resolved] at merged
    rw [applied.2]
    constructor
    · rintro ⟨p, p_mem, rfl, rfl⟩
      obtain ⟨e, mem, type, q, q_mem, port_eq, protocol_eq⟩ :=
        (merged p.protocol).mp ⟨p, p_mem, rfl, rfl⟩
      exact ⟨e, mem, type, q, q_mem, port_eq, congrArg normalizeProto protocol_eq⟩
    · rintro ⟨e, mem, type, q, q_mem, rfl, rfl⟩
      obtain ⟨p, p_mem, port_eq, protocol_eq⟩ :=
        (merged (Dns.protocolOf q)).mpr ⟨e, mem, type, q, q_mem, rfl, rfl⟩
      exact ⟨p, p_mem, port_eq, congrArg normalizeProto protocol_eq⟩
  have backends_iff (ip : Str) : ip ∈ ServiceImport.backends exports downClusters si ↔
      ∃ e ∈ exports, Counts downClusters e ∧ ip ∈ e.spec.ips := by
    rw [ServiceImport.backends, mem_backendsOf]
    refine exists_congr fun e => and_congr_right fun mem => ?_
    simp [same_key e mem]
  simp only [rewrites_iff_planned builds]
  constructor
  · intro covered e mem type p p_mem e' member' counts ip in_ips ip_ne
    have backend := (backends_iff ip).mpr ⟨e', member', counts, in_ips⟩
    have listed := (ports_iff _ p.port).mpr ⟨e, mem, type, p, p_mem, rfl, rfl⟩
    exact covered _ _ ip ⟨si, vip, ⟨mem_singleton_self si, applied.1.trans resolved, first,
      address, ne_nil_of_mem backend⟩, listed, backend, ip_ne⟩
  · rintro covered proto port ip ⟨other, vip', only, listed, backend, ip_ne⟩
    obtain rfl := mem_singleton.mp only.listed
    obtain ⟨e', member', counts, in_ips⟩ := (backends_iff ip).mp backend
    obtain ⟨e, mem, type, p, p_mem, rfl, rfl⟩ := (ports_iff proto port).mp listed
    exact covered e mem type p p_mem e' member' counts ip in_ips ip_ne

/-- An export of the service `prod/web` with one address and one TCP port. -/
def webExportOn (clusterID ip : Str) (port : Int) : EndpointExport where
  namespace_ := "prod"
  name := "web-" ++ clusterID
  spec := {
    clusterID
    serviceNamespace := "prod"
    serviceName := "web"
    type := .clusterSetIP
    exportedAtUnix := 0
    ports := [⟨[], "TCP", none, port⟩]
    ips := [ip] }

/-- The import of the web service with given ports. -/
def webImportOn (ports : List ServicePort) : ServiceImport where
  namespace_ := "prod"
  name := "web"
  spec := ⟨ports, ["241.0.0.5"], .clusterSetIP⟩
  clusters := []

theorem webExportOn_key (clusterID ip : Str) (port : Int) :
    (endpointExportToExported (webExportOn clusterID ip port)).key = ⟨"prod", "web"⟩ := rfl

theorem targets_export_port_same_port :
    let exports := [webExportOn "cluster-a" "10.96.0.7" 80,
      webExportOn "cluster-b" "10.97.0.7" 80]
    let si := webImportOn [⟨[], "TCP", none, 80⟩]
    ∀ proto port ip, (buildRuleset (buildServiceDNAT [si] exports fun _ => false)).Rewrites proto
        (dnatTarget ip (itoaInt port)) →
      ∃ e ∈ exports, ip ∈ e.spec.ips ∧ Lists e proto port := by
  intro exports si
  obtain ⟨plan, planned, type, ports⟩ : ∃ plan, Dns.planServiceImport (.stable _) id
      (exports.map fun e => (endpointExportToExported e).endpoint) = some plan ∧
      plan.type = .clusterSetIP ∧ si.spec.ports = plan.ports := by
    refine ⟨_, rfl, rfl, ?_⟩
    decide +kernel
  refine (targets_export_port_iff (.stable _) id ⟨"prod", "web"⟩ exports ?_ plan planned
    type si ⟨rfl, rfl⟩ ⟨type.symm, ports⟩ "241.0.0.5" rfl (by decide) (fun _ => false) _
    (builds_buildRuleset _)).mpr ?_
  · simp [exports, webExportOn_key]
  · intro e e_mem _ p p_mem e' e'_mem _ ip in_ips _
    have listed : ∀ e ∈ exports, e.spec.ports = [⟨[], "TCP", none, 80⟩] := by
      simp [exports, webExportOn]
    rw [listed e e_mem, mem_singleton] at p_mem
    subst p_mem
    refine ⟨e', e'_mem, in_ips, _, ?_, rfl, rfl⟩
    rw [listed e' e'_mem]
    exact mem_singleton_self _

/-- A port that one cluster exports is rewritten to another cluster, which does not export it. -/
theorem port_rewritten_to_other_cluster :
    let exports := [webExportOn "cluster-a" "10.96.0.7" 80,
      webExportOn "cluster-b" "10.97.0.7" 443]
    let si := webImportOn [⟨[], "TCP", none, 80⟩, ⟨[], "TCP", none, 443⟩]
    (∃ plan, Dns.planServiceImport (.stable _) id
      (exports.map fun e => (endpointExportToExported e).endpoint) = some plan ∧
      si.spec.type = plan.type ∧ si.spec.ports = plan.ports) ∧
    (buildRuleset (buildServiceDNAT [si] exports fun _ => false)).Rewrites "tcp"
      (dnatTarget "10.96.0.7" (itoaInt 443)) ∧
    ∀ e ∈ exports, str "10.96.0.7" ∈ e.spec.ips → ¬ Lists e "tcp" 443 := by
  intro exports si
  refine ⟨⟨_, rfl, rfl, by decide +kernel⟩, ?_, ?_⟩
  · refine (rewrites_iff_planned (builds_buildRuleset _)).mpr ⟨si, "241.0.0.5", ?_,
      ⟨⟨[], "TCP", none, 443⟩, by decide, rfl, by decide +kernel⟩, by decide, by decide⟩
    exact ⟨mem_singleton_self si, rfl, rfl, by decide, by decide⟩
  · simp only [exports, forall_mem_cons]
    refine ⟨?_, ?_, by simp⟩
    · rintro - ⟨p, p_mem, port_eq, -⟩
      rw [mem_singleton.mp p_mem] at port_eq
      exact absurd port_eq (by decide)
    · intro in_ips
      exact absurd in_ips (by decide)

/-- The rules for the tables that there are have operands of the family of the table exactly if
every planned import for such a table has a literal as its virtual address and only backends of
the same family. -/
theorem clusterset_families_iff (imports : List ServiceImport) (exports : List EndpointExport)
    (literals : ∀ e ∈ exports, ∀ ip ∈ e.spec.ips, ∃ address, parseIP ip = some address)
    (downClusters : Str → Bool) (ip6tables : Bool) (rs : Bool → Ruleset)
    (builds : ∀ six, Builds (servicesOf six (buildServiceDNAT imports exports downClusters))
      (rs six)) :
    (∀ six, (six = true → ip6tables = true) → ∀ rule ∈ (rs six).rules, rule.OfFamily six) ↔
      ∀ si ∈ imports, si.spec.type = .clusterSetIP → si.spec.ports ≠ [] →
        ∀ vip, si.spec.ips.head? = some vip → vip ≠ [] → (isIPv6 vip = true → ip6tables = true) →
          ∀ e ∈ exports, Counts downClusters e →
            serviceKey e.spec.serviceNamespace e.spec.serviceName =
              serviceKey si.namespace_ si.name →
            ∀ ip ∈ e.spec.ips,
              (∃ address, parseIP vip = some address) ∧ isIPv6 ip = isIPv6 vip := by
  have by_expansion : (∀ six, (six = true → ip6tables = true) →
      ∀ rule ∈ (rs six).rules, rule.OfFamily six) ↔
      ∀ x ∈ expansions (buildServiceDNAT imports exports downClusters),
        (isIPv6 x.service.vip = true → ip6tables = true) →
          ∀ rule ∈ x.rules, rule.OfFamily (isIPv6 x.service.vip) := by
    simp only [(builds _).mem_rules, mem_expansions_servicesOf]
    constructor
    · intro all x expanded table rule mem
      exact all _ table rule ⟨x, ⟨expanded, rfl⟩, mem⟩
    · rintro all six table rule ⟨x, ⟨expanded, rfl⟩, mem⟩
      exact all x expanded table rule mem
  have literal_backend : ∀ {si : ServiceImport} {ip : Str},
      ip ∈ ServiceImport.backends exports downClusters si →
        ∃ address, parseIP ip = some address := by
    intro si ip mem
    obtain ⟨e, e_mem, -, -, in_ips⟩ := mem_backendsOf.mp mem
    exact literals e e_mem ip in_ips
  rw [by_expansion]
  simp only [Expansion.ofFamily_rules, matchOfFamily_hostCIDR, mem_expansions_buildServiceDNAT]
  constructor
  · intro all si listed type ports vip first address table e e_mem counts same_key ip in_ips
    have backend : ip ∈ ServiceImport.backends exports downClusters si :=
      mem_backendsOf.mpr ⟨e, e_mem, counts, same_key, in_ips⟩
    obtain ⟨p, p_mem⟩ := exists_mem_of_ne_nil _ ports
    obtain ⟨literal, targets⟩ := all _ ⟨si, vip, ⟨listed, type, first, address,
      ne_nil_of_mem backend⟩, p, p_mem, rfl⟩ table
    obtain ⟨parsed, ip_eq⟩ := literal_backend backend
    have nonempty : ip ≠ [] := by
      rintro rfl
      cases ip_eq
    exact ⟨literal, (targetOfFamily_dnatTarget ip_eq).mp
      (targets ip (mem_uniqueSortedStrings.mpr ⟨backend, nonempty⟩))⟩
  · rintro all x ⟨si, vip, planned, p, p_mem, rfl⟩ table
    have each : ∀ ip ∈ ServiceImport.backends exports downClusters si,
        (∃ address, parseIP vip = some address) ∧ isIPv6 ip = isIPv6 vip := by
      intro ip mem
      obtain ⟨e, e_mem, counts, same_key, in_ips⟩ := mem_backendsOf.mp mem
      exact all si planned.listed planned.type (ne_nil_of_mem p_mem) vip planned.first
        planned.address table e e_mem counts same_key ip in_ips
    obtain ⟨some_ip, some_mem⟩ := exists_mem_of_ne_nil _ planned.backed
    refine ⟨(each some_ip some_mem).1, fun backend mem => ?_⟩
    have in_backends := (mem_uniqueSortedStrings.mp mem).1
    obtain ⟨parsed, ip_eq⟩ := literal_backend in_backends
    exact (targetOfFamily_dnatTarget ip_eq).mpr (each backend in_backends).2

theorem clusterset_families_one_family :
    (∃ address, parseIP "10.40.7.9" = some address) ∧
    ∀ rule ∈ (buildRuleset (servicesOf false
      (buildServiceDNAT [webImport] [webExport "10.40.7.9"] fun _ => false))).rules,
      rule.OfFamily false := by
  have literal : ∃ address, parseIP "10.40.7.9" = some address :=
    Option.isSome_iff_exists.mp (by decide +kernel)
  refine ⟨literal, (clusterset_families_iff [webImport] [webExport "10.40.7.9"] ?_ _ true
    (fun six => buildRuleset (servicesOf six _)) fun six => builds_buildRuleset _).mpr ?_ false
      (by decide)⟩
  · rintro e (_ | ⟨_, ⟨⟩⟩) ip (_ | ⟨_, ⟨⟩⟩)
    exact literal
  · rintro si (_ | ⟨_, ⟨⟩⟩) - - vip ⟨⟩ - - e (_ | ⟨_, ⟨⟩⟩) - - ip (_ | ⟨_, ⟨⟩⟩)
    exact ⟨Option.isSome_iff_exists.mp (by decide +kernel), by decide⟩

/-- An export with an address of each family. -/
def dualStackExport : EndpointExport :=
  webExportBy "cluster-b" "http" 5

/-- A dual-stack export puts an IPv6 target into the IPv4 table. -/
theorem ipv6_target_in_ipv4_table :
    (∀ ip ∈ dualStackExport.spec.ips, (parseIP ip).isSome) ∧
    ∃ rule ∈ (buildRuleset (servicesOf false
        (buildServiceDNAT [webImport] [dualStackExport] fun _ => false))).rules,
      rule.args = rewriteArgs "tcp" "[fd00::7]:80" ∧ ¬ rule.OfFamily false := by
  refine ⟨by decide +kernel, ?_⟩
  obtain ⟨rule, mem, args_eq⟩ : (buildRuleset (servicesOf false
      (buildServiceDNAT [webImport] [dualStackExport] fun _ => false))).Rewrites "tcp"
      "[fd00::7]:80" := by
    refine (builds_buildRuleset _).rewrites_iff.mpr
      ⟨importExpansion [dualStackExport] (fun _ => false) webImport "241.0.0.5"
        ⟨"http", "TCP", none, 80⟩, mem_expansions_servicesOf.mpr ⟨?_, by decide⟩,
        "fd00::7", ?_, by decide +kernel, by decide +kernel⟩
    · exact mem_expansions_buildServiceDNAT.mpr ⟨_, _, ⟨mem_singleton_self _, rfl, rfl,
        by decide, by decide⟩, _, mem_singleton_self _, rfl⟩
    · exact mem_uniqueSortedStrings.mpr ⟨by decide, by decide⟩
  refine ⟨rule, mem, args_eq, fun of_family => ?_⟩
  obtain ⟨address, literal⟩ : ∃ address, parseIP "fd00::7" = some address :=
    Option.isSome_iff_exists.mp (by decide +kernel)
  have target : TargetOfFamily false (dnatTarget "fd00::7" "80") := by
    refine (of_family ("--to-destination", "[fd00::7]:80") ?_).2 rfl
    rw [args_eq]
    exact mem_cons_of_mem _ (mem_cons_of_mem _ mem_cons_self)
  exact absurd ((targetOfFamily_dnatTarget literal).mp target) (by decide)

end DatawerxMesh.Controllers
