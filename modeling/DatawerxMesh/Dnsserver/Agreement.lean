import DatawerxMesh.Controllers.ServiceTargets
import DatawerxMesh.Dnsserver.Server

/-!
# Answered addresses and rewritten addresses

The zone server answers with every virtual address of an import, whereas the planner makes rules for
the first one only.
-/

namespace DatawerxMesh.Dnsserver

open Go NatPlane DatawerxMesh.Controllers List

/-- An export of the service carries a backend of the family of the host. -/
def Backed (exports : List EndpointExport) (si : ServiceImport) (host : BitVec 128) : Prop :=
  ∃ e ∈ exports, EndpointExport.Counts (fun _ => false) e ∧
    e.spec.serviceNamespace = si.namespace_ ∧ e.spec.serviceName = si.name ∧
    ∃ ip ∈ e.spec.ips, ∃ backend, parseIP ip = some (.sixteen backend) ∧
      (unmap backend = none ↔ unmap host = none)

/-- The rules lead traffic for a port of the service at the host to a rewriting rule. -/
def Served (services : List ServiceDNAT) (rs : Ruleset) (si : ServiceImport) (p : ServicePort)
    (host : BitVec 128) : Prop :=
  ∃ x ∈ expansions services, x.service.namespace_ = si.namespace_ ∧ x.service.name = si.name ∧
    parseIP x.service.vip = some (.sixteen host) ∧
    x.proto = normalizeProto p.protocol ∧ x.portStr = itoaInt p.port ∧ x.rootRule ∈ rs.rules ∧
    ∃ backend ∈ x.backends, x.dnatRule backend ∈ rs.rules ∧
      ∃ rule ∈ rs.rules, rule.chain = x.svcChain ∧
        (str "-j", x.sepChain backend) ∈ optionsOf rule.args

/-- Some query is read as the name of the service. -/
def Queryable (unicode : CaseTable) (si : ServiceImport) : Prop :=
  ∃ qname, parseClusterSetName unicode qname = some (si.name, si.namespace_)

/-- The reply to one question, from the objects of the cluster. -/
def replyFor (unicode : CaseTable) (server : Server) (imports : List ServiceImport)
    (exports : List EndpointExport) (q : Question) : Reply :=
  server.buildReply unicode (Reader.of Str imports exports).lookupClusterSet [q]

section Lookup

variable {imports : List ServiceImport} {exports : List EndpointExport} {si : ServiceImport}

theorem find?_of_distinct (distinct : (imports.map importKey).Nodup) (mem : si ∈ imports) :
    (imports.find? fun other => other.namespace_ == si.namespace_ && other.name == si.name) =
      some si := by
  have some_import : (imports.find? fun other =>
      other.namespace_ == si.namespace_ && other.name == si.name).isSome :=
    List.find?_isSome.mpr ⟨si, mem, by simp⟩
  obtain ⟨other, found⟩ := Option.isSome_iff_exists.mp some_import
  have same : importKey other = importKey si := by
    have both := List.find?_some found
    simp only [Bool.and_eq_true, beq_iff_eq] at both
    rw [importKey, importKey, both.1, both.2]
  rw [found, inj_on_of_nodup_map distinct (mem_of_find?_eq_some found) mem same]

theorem answer_replyFor {unicode : CaseTable} {server : Server}
    (distinct : (imports.map importKey).Nodup) (mem : si ∈ imports)
    (type : si.spec.type = .clusterSetIP) {q : Question}
    (named : parseClusterSetName unicode q.name = some (si.name, si.namespace_)) :
    (replyFor unicode server imports exports q).answer = server.appendAnswers q si.spec.ips := by
  have resolved : (Reader.of Str imports exports).lookupClusterSet si.namespace_ si.name =
      .ok (some ⟨.clusterSetIP, si.spec.ips⟩) := by
    have found : (Reader.of Str imports exports).get si.namespace_ si.name = .ok (some si) :=
      congrArg Except.ok (find?_of_distinct distinct mem)
    simp only [Reader.lookupClusterSet, found, bind, Except.bind, type]
    rfl
  rw [replyFor, Server.buildReply]
  simp only [inClusterSetZone_of_parse named, named, resolved, Bool.true_eq_false, if_false]
  split
  case isTrue empty => simp [empty, Server.appendAnswers]
  case isFalse => rfl

theorem served_iff (distinct : (imports.map importKey).Nodup) (mem : si ∈ imports)
    (type : si.spec.type = .clusterSetIP) {rs : Ruleset}
    (builds : Builds (buildServiceDNAT imports exports fun _ => false) rs) {p : ServicePort}
    (listed : p ∈ si.spec.ports) {host : BitVec 128} :
    Served (buildServiceDNAT imports exports fun _ => false) rs si p host ↔
      (∃ vip, si.spec.ips.head? = some vip ∧ parseIP vip = some (.sixteen host)) ∧
        ∃ ip ∈ ServiceImport.backends exports (fun _ => false) si, ip ≠ [] := by
  constructor
  · rintro ⟨x, expanded, ns_eq, name_eq, read, -, -, -, backend, in_backends, -⟩
    obtain ⟨other, vip, planned, port, -, rfl⟩ := mem_expansions_buildServiceDNAT.mp expanded
    have same : importKey other = importKey si := by
      rw [importKey, importKey, ← ns_eq, ← name_eq]
      rfl
    obtain rfl := inj_on_of_nodup_map distinct planned.listed mem same
    exact ⟨⟨vip, planned.first, read⟩, backend, mem_uniqueSortedStrings.mp in_backends⟩
  · rintro ⟨⟨vip, first, read⟩, ip, backend, ip_ne⟩
    have address : vip ≠ [] := by
      rintro rfl
      cases read
    let x := importExpansion exports (fun _ => false) si vip p
    have expanded : x ∈ expansions (buildServiceDNAT imports exports fun _ => false) :=
      mem_expansions_buildServiceDNAT.mpr ⟨si, vip, ⟨mem, type, first, address,
        ne_nil_of_mem backend⟩, p, listed, rfl⟩
    have in_rules : ∀ rule ∈ x.rules, rule ∈ rs.rules := fun rule rule_mem =>
      builds.mem_rules.mpr ⟨x, expanded, rule_mem⟩
    have in_backends : ip ∈ x.backends := mem_uniqueSortedStrings.mpr ⟨backend, ip_ne⟩
    obtain ⟨rule, rule_mem, shape⟩ :=
      exists_mem_balance x.svcChain (mem_map_of_mem (f := x.sepChain) in_backends)
    refine ⟨x, expanded, rfl, rfl, read, proto_importExpansion si vip p, rfl,
      in_rules _ mem_cons_self, ip, in_backends, in_rules _ ?_, rule, in_rules rule ?_, shape⟩
    · exact mem_cons_of_mem _ (mem_append_right _ (mem_map_of_mem in_backends))
    · exact mem_cons_of_mem _ (mem_append_left _ rule_mem)

theorem Backed.exists_backend {host : BitVec 128} (backed : Backed exports si host) :
    ∃ ip ∈ ServiceImport.backends exports (fun _ => false) si, ip ≠ [] := by
  obtain ⟨e, e_mem, counts, ns_eq, name_eq, ip, in_ips, backend, parsed, -⟩ := backed
  refine ⟨ip, mem_backendsOf.mpr ⟨e, e_mem, counts, by rw [ns_eq, name_eq], in_ips⟩, ?_⟩
  rintro rfl
  cases parsed

end Lookup

/-- Every answered address with a backend of its family is rewritten on every port exactly if
no import with ports lists such an address behind a first one that differs. -/
theorem dns_nat_agree_iff (go : Runtime Dns.Site) (quote : Str → Str)
    (r : ServiceImportReconciler) (exports : List EndpointExport) (imports : List ServiceImport)
    (reconciled : r.Reconciled go quote exports imports) (unicode : CaseTable) (server : Server)
    (rs : Ruleset) (builds : Builds (buildServiceDNAT imports exports fun _ => false) rs) :
    (∀ si ∈ imports, si.spec.type = .clusterSetIP → ∀ p ∈ si.spec.ports, ∀ q : Question,
      parseClusterSetName unicode q.name = some (si.name, si.namespace_) →
        ∀ record ∈ (replyFor unicode server imports exports q).answer,
          Backed exports si record.host →
            Served (buildServiceDNAT imports exports fun _ => false) rs si p record.host) ↔
    ∀ si ∈ imports, si.spec.type = .clusterSetIP → si.spec.ports ≠ [] → Queryable unicode si →
      ∀ ip ∈ si.spec.ips.tail, ∀ host, parseIP ip = some (.sixteen host) → Backed exports si host →
        ∃ vip, si.spec.ips.head? = some vip ∧ parseIP vip = some (.sixteen host) := by
  have distinct := reconciled.distinct
  constructor
  · intro agree si mem type ports ⟨qname, named⟩ ip in_tail host read backed
    obtain ⟨p, listed⟩ := exists_mem_of_ne_nil _ ports
    let q : Question := ⟨qname, if unmap host = none then typeAAAA else typeA⟩
    have asked : (q.qtype = typeA ∧ unmap host ≠ none) ∨
        (q.qtype = typeAAAA ∧ unmap host = none) := by
      by_cases high : unmap host = none
      · exact Or.inr ⟨if_pos high, high⟩
      · exact Or.inl ⟨if_neg high, high⟩
    obtain ⟨record, answered, rfl⟩ :=
      (server.exists_answer_iff (q := q)).mpr ⟨ip, mem_of_mem_tail in_tail, read, asked⟩
    rw [← answer_replyFor distinct mem type named] at answered
    have served := agree si mem type p listed q named record answered backed
    exact ((served_iff distinct mem type builds listed).mp served).1
  · intro agree si mem type p listed q named record answered backed
    rw [answer_replyFor distinct mem type named] at answered
    obtain ⟨ip, in_ips, read, -⟩ := server.exists_answer_iff.mp ⟨record, answered, rfl⟩
    refine (served_iff distinct mem type builds listed).mpr ⟨?_, backed.exists_backend⟩
    cases ips : si.spec.ips with
    | nil => simp [ips] at in_ips
    | cons first rest =>
      rw [ips, mem_cons] at in_ips
      rcases in_ips with rfl | later
      · exact ⟨_, rfl, read⟩
      · rw [← ips]
        exact agree si mem type (ne_nil_of_mem listed) ⟨q.name, named⟩ ip
          (by rw [ips]; exact later) _ read backed

/-- The import of the service `prod/web` with the given virtual addresses. -/
def importWith (ips : List Str) : ServiceImport where
  namespace_ := "prod"
  name := "web"
  spec := ⟨[⟨"http", "TCP", none, 80⟩], ips, .clusterSetIP⟩
  clusters := ["cluster-b"]

theorem dns_nat_agree_without_pool :
    let imports := [importWith ["241.49.19.6"]]
    let services := buildServiceDNAT imports [dualStackExport] fun _ => false
    ∀ si ∈ imports, si.spec.type = .clusterSetIP → ∀ p ∈ si.spec.ports, ∀ q : Question,
      parseClusterSetName .basic q.name = some (si.name, si.namespace_) →
        ∀ record ∈ (replyFor .basic ⟨0⟩ imports [dualStackExport] q).answer,
          Backed [dualStackExport] si record.host →
            Served services (buildRuleset services) si p record.host := by
  have reconciled : ServiceImportReconciler.Reconciled (.stable _) id ⟨[], []⟩ [dualStackExport]
      [importWith ["241.49.19.6"]] := by
    refine .of_exported (by decide) ?_ ?_
    · rintro ee (_ | ⟨_, ⟨⟩⟩)
      decide +kernel
    · rintro si (_ | ⟨_, ⟨⟩⟩)
      exact ⟨_, mem_cons_self, by decide⟩
  refine (dns_nat_agree_iff (.stable _) id _ _ _ reconciled .basic ⟨0⟩ _
    (builds_buildRuleset _)).mpr ?_
  rintro si (_ | ⟨_, ⟨⟩⟩) - - - ip in_tail
  cases in_tail

/-- The virtual addresses of the dual-stack service when there is an IPv6 pool. -/
def dualStackIPs : List Str := ["241.49.19.6", "fd00:64::5340:88ba:9e31:1306"]

/-- The IPv6 address of a dual-stack service is answered, and no rule rewrites it. -/
theorem answered_without_rule :
    ServiceImportReconciler.Reconciled (.stable _) id ⟨[], "fd00:64::/64"⟩ [dualStackExport]
      [importWith dualStackIPs] ∧
    ∃ record ∈ (replyFor .basic ⟨0⟩ [importWith dualStackIPs] [dualStackExport]
        ⟨"web.prod.svc.clusterset.local.", typeAAAA⟩).answer,
      Backed [dualStackExport] (importWith dualStackIPs) record.host ∧
      ∀ p ∈ (importWith dualStackIPs).spec.ports,
        ¬ Served (buildServiceDNAT [importWith dualStackIPs] [dualStackExport] fun _ => false)
          (buildRuleset
            (buildServiceDNAT [importWith dualStackIPs] [dualStackExport] fun _ => false))
          (importWith dualStackIPs) p record.host := by
  have distinct : ([importWith dualStackIPs].map importKey).Nodup := by decide
  have reconciled : ServiceImportReconciler.Reconciled (.stable _) id ⟨[], "fd00:64::/64"⟩
      [dualStackExport] [importWith dualStackIPs] := by
    refine .of_exported distinct ?_ ?_
    · rintro ee (_ | ⟨_, ⟨⟩⟩)
      decide +kernel
    · rintro si (_ | ⟨_, ⟨⟩⟩)
      exact ⟨_, mem_cons_self, by decide⟩
  have mem : importWith dualStackIPs ∈ [importWith dualStackIPs] := mem_cons_self
  have named : parseClusterSetName .basic "web.prod.svc.clusterset.local." =
      some (str "web", str "prod") := by decide +kernel
  have read : parseIP "fd00:64::5340:88ba:9e31:1306" =
      some (.sixteen 0xfd00006400000000534088ba9e311306#128) := by decide +kernel
  obtain ⟨record, answered, host_eq⟩ := (Server.exists_answer_iff ⟨0⟩
    (q := ⟨"web.prod.svc.clusterset.local.", typeAAAA⟩)).mpr
      ⟨_, (by decide : _ ∈ dualStackIPs), read, Or.inr ⟨rfl, by decide +kernel⟩⟩
  refine ⟨reconciled, record, ?_, ?_, fun p listed served => ?_⟩
  · rw [answer_replyFor distinct mem rfl named]
    exact answered
  · exact ⟨dualStackExport, mem_cons_self, ⟨rfl, rfl⟩, rfl, rfl, "fd00::7", by decide,
      0xfd000000000000000000000000000007#128, by decide +kernel, by rw [host_eq]; decide +kernel⟩
  · obtain ⟨⟨vip, first, other⟩, -⟩ :=
      (served_iff distinct mem rfl (builds_buildRuleset _) listed).mp served
    obtain rfl := Option.some.inj first
    rw [host_eq] at other
    exact absurd other (by decide +kernel)

end DatawerxMesh.Dnsserver
