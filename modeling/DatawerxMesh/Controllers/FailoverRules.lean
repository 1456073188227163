import DatawerxMesh.Controllers.ServiceTargets
import DatawerxMesh.Library.Joining
import DatawerxMesh.NatPlane.ServiceRules

/-!
# Failover touches only affected services

A service that no down cluster exports has the same rules and chains with and without failover.  Any
other service is led to the clusters that are left.
-/

namespace DatawerxMesh.Controllers

open Go NatPlane List

/-- An export that offers backends to an import. -/
def Supplies (e : EndpointExport) (si : ServiceImport) : Prop :=
  e.spec.type = .clusterSetIP ∧ e.spec.serviceNamespace = si.namespace_ ∧
    e.spec.serviceName = si.name

/-- A cluster behind the import is down. -/
def Affected (exports : List EndpointExport) (downClusters : Str → Bool) (si : ServiceImport) :
    Prop :=
  ∃ e ∈ exports, Supplies e si ∧ downClusters e.spec.clusterID = true

/-- Imports with their own names and virtual addresses, exports with addresses, and names without a
slash. -/
structure Distinct (imports : List ServiceImport) (exports : List EndpointExport) : Prop where
  names : (imports.map fun si => (si.namespace_, si.name)).Nodup
  type : ∀ si ∈ imports, si.spec.type = .clusterSetIP
  address : ∀ si ∈ imports, ∃ vip, si.spec.ips.head? = some vip ∧ vip ≠ []
  vips : (imports.map fun si => si.spec.ips.head?).Nodup
  addresses : ∀ e ∈ exports, [] ∉ e.spec.ips
  import_name : ∀ si ∈ imports, 47 ∉ si.name
  export_name : ∀ e ∈ exports, 47 ∉ e.spec.serviceName

/-- All clusters are up. -/
def noneDown : Str → Bool := fun _ => false

theorem sublist_services {γ : Type} (imports : List ServiceImport) (exports : List EndpointExport)
    (downClusters : Str → Bool) (ofService : ServiceDNAT → γ) {ofImport : ServiceImport → γ}
    (same : ∀ si, ∀ s ∈ buildServiceDNAT [si] exports downClusters, ofService s = ofImport si) :
    ((buildServiceDNAT imports exports downClusters).map ofService).Sublist
      (imports.map ofImport) := by
  induction imports with
  | nil => exact .slnil
  | cons si rest ih =>
    have split : buildServiceDNAT (si :: rest) exports downClusters =
        buildServiceDNAT [si] exports downClusters ++
          buildServiceDNAT rest exports downClusters := by
      rw [← singleton_append, buildServiceDNAT, filterMap_append]
      rfl
    have whole : (si :: rest).map ofImport = [ofImport si] ++ rest.map ofImport := rfl
    rw [split, map_append, whole]
    refine Sublist.append ?_ ih
    have of_one := same si
    have short : (buildServiceDNAT [si] exports downClusters).length ≤ 1 :=
      length_filterMap_le _ [si]
    generalize buildServiceDNAT [si] exports downClusters = built at of_one short ⊢
    cases built with
    | nil => exact nil_sublist _
    | cons s more =>
      obtain rfl : more = [] := by simpa using short
      rw [map_singleton, of_one s mem_cons_self]

section Runs

variable {imports : List ServiceImport} {exports : List EndpointExport} {downClusters : Str → Bool}
  (distinct : Distinct imports exports) {si : ServiceImport} {vip : Str} {rs : Ruleset}

include distinct

theorem Distinct.key_eq_iff (listed : si ∈ imports) {e : EndpointExport} (exported : e ∈ exports) :
    serviceKey e.spec.serviceNamespace e.spec.serviceName = serviceKey si.namespace_ si.name ↔
      e.spec.serviceNamespace = si.namespace_ ∧ e.spec.serviceName = si.name := by
  constructor
  · intro same
    have slash : str "/" = [47] := by decide
    rw [serviceKey, serviceKey, slash, ← append_cons, ← append_cons] at same
    exact Joining.append_cons_inj_of_absent (distinct.export_name e exported)
      (distinct.import_name si listed) same
  · rintro ⟨namespace_eq, name_eq⟩
    rw [namespace_eq, name_eq]

theorem Distinct.mem_backends (listed : si ∈ imports) {ip : Str} :
    ip ∈ ServiceImport.backends exports downClusters si ↔
      ∃ e ∈ exports, Supplies e si ∧ downClusters e.spec.clusterID = false ∧ ip ∈ e.spec.ips := by
  rw [ServiceImport.backends, mem_backendsOf]
  refine exists_congr fun e => and_congr_right fun exported => ?_
  rw [distinct.key_eq_iff listed exported, EndpointExport.Counts, Supplies]
  tauto

theorem Distinct.backends_eq (listed : si ∈ imports)
    (unaffected : ¬ Affected exports downClusters si) :
    ServiceImport.backends exports downClusters si =
      ServiceImport.backends exports noneDown si := by
  rw [ServiceImport.backends, ServiceImport.backends, backendsOf, backendsOf]
  congr 1
  refine filter_congr fun e exported => ?_
  rw [Bool.eq_iff_iff, Bool.and_eq_true, Bool.and_eq_true, decide_eq_true_eq, decide_eq_true_eq,
    beq_iff_eq, distinct.key_eq_iff listed exported]
  refine and_congr_left fun own => and_congr_right fun type => ?_
  refine iff_of_true (Bool.eq_false_iff.mpr fun down => unaffected ?_) rfl
  exact ⟨e, exported, ⟨type, own⟩, down⟩

theorem Distinct.eq_of_names {si' : ServiceImport} (listed : si ∈ imports) (listed' : si' ∈ imports)
    (same : (si.namespace_, si.name) = (si'.namespace_, si'.name)) : si = si' :=
  inj_on_of_nodup_map distinct.names listed listed' same

theorem Distinct.eq_of_vip {si' : ServiceImport} (listed : si ∈ imports) (listed' : si' ∈ imports)
    (first : si.spec.ips.head? = some vip) (first' : si'.spec.ips.head? = some vip) : si = si' :=
  inj_on_of_nodup_map distinct.vips listed listed' (first.trans first'.symm)

theorem Distinct.nodup_services (downClusters : Str → Bool) :
    ((buildServiceDNAT imports exports downClusters).map ServiceDNAT.names).Nodup ∧
      ((buildServiceDNAT imports exports downClusters).map ServiceDNAT.vip).Nodup := by
  constructor
  · refine distinct.names.sublist
      (sublist_services imports exports downClusters ServiceDNAT.names fun si s built => ?_)
    obtain ⟨si', mem, -, -, namespace_eq, name_eq, -⟩ := mem_buildServiceDNAT.mp built
    obtain rfl := mem_singleton.mp mem
    exact Prod.ext namespace_eq name_eq
  · have own := distinct.vips.sublist (sublist_services imports exports downClusters
      (fun s => some s.vip) fun si s built => ?_)
    · refine Nodup.of_map some ?_
      rwa [map_map]
    · obtain ⟨si', mem, -, first, -⟩ := mem_buildServiceDNAT.mp built
      obtain rfl := mem_singleton.mp mem
      exact first.symm

theorem Distinct.backends_subset (listed : si ∈ imports) :
    ServiceImport.backends exports downClusters si ⊆
      ServiceImport.backends exports noneDown si := by
  intro ip mem
  obtain ⟨e, exported, own, -, in_ips⟩ := (distinct.mem_backends listed).mp mem
  exact (distinct.mem_backends listed).mpr ⟨e, exported, own, rfl, in_ips⟩

theorem Distinct.planned_noneDown (planned : Planned imports exports downClusters si vip) :
    Planned imports exports noneDown si vip := by
  obtain ⟨ip, ip_mem⟩ := exists_mem_of_ne_nil _ planned.backed
  exact ⟨planned.listed, planned.type, planned.first, planned.address,
    ne_nil_of_mem (distinct.backends_subset planned.listed ip_mem)⟩

theorem Distinct.expansion_backends_subset (listed : si ∈ imports) (vip : Str) (p : ServicePort) :
    (importExpansion exports downClusters si vip p).backends ⊆
      (importExpansion exports noneDown si vip p).backends := by
  intro backend mem
  obtain ⟨in_backends, nonempty⟩ := mem_uniqueSortedStrings.mp mem
  exact mem_uniqueSortedStrings.mpr ⟨distinct.backends_subset listed in_backends, nonempty⟩

/-- The hashed texts are the same with all clusters. -/
theorem Distinct.hashed_subset :
    hashed (buildServiceDNAT imports exports downClusters) ⊆
      hashed (buildServiceDNAT imports exports noneDown) := by
  rintro tuple ⟨x, x_mem, shape⟩
  obtain ⟨si, vip, planned, p, p_mem, rfl⟩ := mem_expansions_buildServiceDNAT.mp x_mem
  refine ⟨importExpansion exports noneDown si vip p, mem_expansions_buildServiceDNAT.mpr
    ⟨si, vip, distinct.planned_noneDown planned, p, p_mem, rfl⟩, ?_⟩
  rcases shape with svc | ⟨backend, backend_mem, sep⟩
  · exact Or.inl svc
  · exact Or.inr ⟨backend, distinct.expansion_backends_subset planned.listed vip p backend_mem, sep⟩

/-- A chain planned without some clusters is one of the same service with all of them. -/
theorem Distinct.mem_chains (builds : Builds (buildServiceDNAT imports exports downClusters) rs)
    {chain : Str} (mem : chain ∈ rs.chains) :
    ∃ si vip p, Planned imports exports downClusters si vip ∧ p ∈ si.spec.ports ∧
      chain ∈ (importExpansion exports noneDown si vip p).chains := by
  obtain ⟨x, x_mem, in_chains⟩ := builds.mem_chains.mp mem
  obtain ⟨si, vip, planned, p, p_mem, rfl⟩ := mem_expansions_buildServiceDNAT.mp x_mem
  refine ⟨si, vip, p, planned, p_mem, ?_⟩
  rcases mem_cons.mp in_chains with is_svc | is_sep
  · exact mem_cons.mpr (Or.inl is_svc)
  · obtain ⟨backend, backend_mem, chain_eq⟩ := mem_map.mp is_sep
    exact mem_cons_of_mem _ (mem_map.mpr
      ⟨backend, distinct.expansion_backends_subset planned.listed vip p backend_mem, chain_eq⟩)

theorem Distinct.expansion_iff (listed : si ∈ imports)
    (unaffected : ¬ Affected exports downClusters si) {x : Expansion}
    (named : x.service.names = (si.namespace_, si.name)) :
    x ∈ expansions (buildServiceDNAT imports exports downClusters) ↔
      x ∈ expansions (buildServiceDNAT imports exports noneDown) := by
  have backends_eq := distinct.backends_eq listed unaffected
  rw [mem_expansions_buildServiceDNAT, mem_expansions_buildServiceDNAT]
  constructor
  all_goals
    rintro ⟨si', vip, planned, p, p_mem, rfl⟩
    obtain rfl := distinct.eq_of_names planned.listed listed named
    refine ⟨si', vip, ⟨planned.listed, planned.type, planned.first, planned.address,
      backends_eq ▸ planned.backed⟩, p, p_mem, ?_⟩
    rw [importExpansion, importExpansion, backends_eq]

theorem Distinct.services_at_eq (listed : si ∈ imports)
    (unaffected : ¬ Affected exports downClusters si) (first : si.spec.ips.head? = some vip) :
    (buildServiceDNAT imports exports downClusters).filter (fun s => s.vip = vip) =
      (buildServiceDNAT imports exports noneDown).filter fun s => s.vip = vip := by
  have backends_eq := distinct.backends_eq listed unaffected
  rw [ServiceImport.backends, ServiceImport.backends] at backends_eq
  rw [buildServiceDNAT, buildServiceDNAT, filter_filterMap, filter_filterMap]
  refine filterMap_congr fun si' listed' => ?_
  by_cases same : si' = si
  · rw [same, backends_eq]
  · have other : ∀ vip' rest, si'.spec.ips = vip' :: rest → vip' ≠ vip := by
      rintro vip' rest ips_eq rfl
      exact same (distinct.eq_of_vip listed' listed (by rw [ips_eq]; rfl) first)
    cases si'.spec.type with
    | headless => rfl
    | clusterSetIP =>
      cases ips_eq : si'.spec.ips with
      | nil => rfl
      | cons vip' rest =>
        have dropped : ∀ s : ServiceDNAT, s.vip = vip' →
            (some s).filter (fun s => s.vip = vip) = none := fun s at_vip => by
          rw [Option.filter_some, if_neg]
          simpa [at_vip] using other vip' rest ips_eq
        dsimp only
        split
        · split
          · rfl
          · exact (dropped _ rfl).symm
        · split
          · exact dropped _ rfl
          · rw [dropped _ rfl, dropped _ rfl]

section

variable (collisionless : Collisionless (buildServiceDNAT imports exports noneDown))
  (builds : Builds (buildServiceDNAT imports exports downClusters) rs) (listed : si ∈ imports)
  (first : si.spec.ips.head? = some vip)

include collisionless builds listed first

theorem Distinct.leads_iff {proto port target : Str} :
    rs.Leads vip proto port target ↔
      (∃ p ∈ si.spec.ports, normalizeProto p.protocol = proto ∧ itoaInt p.port = port) ∧
        ∃ e ∈ exports, Supplies e si ∧ downClusters e.spec.clusterID = false ∧
          ∃ ip ∈ e.spec.ips, target = dnatTarget ip port := by
  rw [builds.leads_iff (distinct.nodup_services downClusters).1
    (collisionless.mono distinct.hashed_subset)]
  constructor
  · rintro ⟨x, x_mem, rfl, rfl, rfl, backend, backend_mem, rfl⟩
    obtain ⟨si', vip, planned, p, p_mem, rfl⟩ := mem_expansions_buildServiceDNAT.mp x_mem
    obtain rfl := distinct.eq_of_vip planned.listed listed planned.first first
    obtain ⟨e, exported, own, up, in_ips⟩ :=
      (distinct.mem_backends listed).mp (mem_uniqueSortedStrings.mp backend_mem).1
    exact ⟨⟨p, p_mem, (proto_importExpansion si' vip p).symm, rfl⟩, e, exported, own, up, backend,
      in_ips, rfl⟩
  · rintro ⟨⟨p, p_mem, rfl, rfl⟩, e, exported, own, up, ip, in_ips, rfl⟩
    have backend := (distinct.mem_backends listed).mpr ⟨e, exported, own, up, in_ips⟩
    obtain ⟨vip', first', vip_ne⟩ := distinct.address si listed
    obtain rfl := Option.some.inj (first.symm.trans first')
    have planned : Planned imports exports downClusters si vip :=
      ⟨listed, distinct.type si listed, first, vip_ne, ne_nil_of_mem backend⟩
    have ip_ne : ip ≠ [] := fun empty => distinct.addresses e exported (empty ▸ in_ips)
    exact ⟨importExpansion exports downClusters si vip p,
      mem_expansions_buildServiceDNAT.mpr ⟨si, vip, planned, p, p_mem, rfl⟩, rfl,
      proto_importExpansion si vip p, rfl, ip, mem_uniqueSortedStrings.mpr ⟨backend, ip_ne⟩, rfl⟩

theorem Distinct.nothing_left (none_left : ServiceImport.backends exports downClusters si = []) :
    rs.rulesFor vip = [] ∧
      ∀ chain ∈ chainsNamed (buildServiceDNAT imports exports noneDown) (si.namespace_, si.name),
        chain ∉ rs.chains ∧ rs.chainRules chain = [] := by
  constructor
  · have unplanned : (buildServiceDNAT imports exports downClusters).filter
        (fun s => s.vip = vip) = [] := by
      refine filter_eq_nil_iff.mpr fun s built same => ?_
      obtain ⟨si', listed', -, first', -, -, -, backends_eq, backed⟩ :=
        mem_buildServiceDNAT.mp built
      rw [of_decide_eq_true same] at first'
      obtain rfl := distinct.eq_of_vip listed' listed first' first
      exact backed (backends_eq.trans none_left)
    rw [builds.rulesFor_eq (distinct.nodup_services downClusters).2, unplanned]
    rfl
  · rintro chain ⟨x, x_mem, named, in_chains⟩
    have absent : chain ∉ rs.chains := by
      intro mem
      obtain ⟨si', vip', p, planned, p_mem, in_y⟩ := distinct.mem_chains builds mem
      have y_mem := mem_expansions_buildServiceDNAT.mpr
        ⟨si', vip', distinct.planned_noneDown planned, p, p_mem, rfl⟩
      have same := names_eq_of_parts
        (parts_eq_of_shared_chain collisionless y_mem x_mem in_y in_chains)
      obtain rfl := distinct.eq_of_names planned.listed listed (same.trans named)
      exact planned.backed none_left
    have not_root : chain ≠ rootChain := by
      rintro rfl
      have managed := ClusterSet.isManaged_of_mem_chains in_chains
      rw [ClusterSet.isManaged_rootChain] at managed
      cases managed
    exact ⟨absent, chainRules_eq_nil builds not_root absent⟩

end

/-- Between a plan with all clusters and one without some of them, the rules and the chains of every
unaffected service stay; every other service is led to exactly the addresses of the clusters that
are left, and has neither rules nor chains when there are none. -/
theorem failover_touches_only_affected
    (collisionless : Collisionless (buildServiceDNAT imports exports noneDown)) {rs₀ rs₁ : Ruleset}
    (builds₀ : Builds (buildServiceDNAT imports exports noneDown) rs₀)
    (builds₁ : Builds (buildServiceDNAT imports exports downClusters) rs₁)
    {si : ServiceImport} (listed : si ∈ imports) {vip : Str}
    (first : si.spec.ips.head? = some vip) :
    (¬ Affected exports downClusters si →
      rs₀.rulesFor vip = rs₁.rulesFor vip ∧
        chainsNamed (buildServiceDNAT imports exports noneDown) (si.namespace_, si.name) =
          chainsNamed (buildServiceDNAT imports exports downClusters) (si.namespace_, si.name) ∧
        ∀ chain ∈ chainsNamed (buildServiceDNAT imports exports noneDown) (si.namespace_, si.name),
          chain ∈ rs₀.chains ∧ chain ∈ rs₁.chains ∧
            rs₀.chainRules chain = rs₁.chainRules chain) ∧
    (∀ proto port target, rs₁.Leads vip proto port target ↔
      (∃ p ∈ si.spec.ports, normalizeProto p.protocol = proto ∧ itoaInt p.port = port) ∧
        ∃ e ∈ exports, Supplies e si ∧ downClusters e.spec.clusterID = false ∧
          ∃ ip ∈ e.spec.ips, target = dnatTarget ip port) ∧
    ((∀ e ∈ exports, Supplies e si → downClusters e.spec.clusterID = false → e.spec.ips = []) →
      rs₁.rulesFor vip = [] ∧
        ∀ chain ∈ chainsNamed (buildServiceDNAT imports exports noneDown) (si.namespace_, si.name),
          chain ∉ rs₁.chains ∧ rs₁.chainRules chain = []) := by
  refine ⟨fun unaffected => ⟨?_, ?_, ?_⟩, fun proto port target => ?_, fun none_left => ?_⟩
  · rw [builds₀.rulesFor_eq (distinct.nodup_services noneDown).2,
      builds₁.rulesFor_eq (distinct.nodup_services downClusters).2,
      distinct.services_at_eq listed unaffected first]
  · ext chain
    constructor
    · rintro ⟨x, x_mem, named, in_chains⟩
      exact ⟨x, (distinct.expansion_iff listed unaffected named).mpr x_mem, named, in_chains⟩
    · rintro ⟨x, x_mem, named, in_chains⟩
      exact ⟨x, (distinct.expansion_iff listed unaffected named).mp x_mem, named, in_chains⟩
  · rintro chain ⟨x, x_mem, named, in_chains⟩
    have x_mem' := (distinct.expansion_iff listed unaffected named).mpr x_mem
    exact ⟨builds₀.mem_chains.mpr ⟨x, x_mem, in_chains⟩,
      builds₁.mem_chains.mpr ⟨x, x_mem', in_chains⟩,
      chainRules_eq_of_shared builds₀ builds₁ (distinct.nodup_services noneDown).1
        (distinct.nodup_services downClusters).1 collisionless
        (collisionless.mono distinct.hashed_subset) x_mem x_mem' in_chains⟩
  · exact distinct.leads_iff collisionless builds₁ listed first
  · refine distinct.nothing_left collisionless builds₁ listed first ?_
    refine eq_nil_iff_forall_not_mem.mpr fun ip mem => ?_
    obtain ⟨e, exported, own, up, in_ips⟩ := (distinct.mem_backends listed).mp mem
    rw [none_left e exported own up] at in_ips
    cases in_ips

end Runs

/-- An import of one port. -/
def apiImport : ServiceImport where
  namespace_ := "prod"
  name := "api"
  spec := ⟨[⟨[], "TCP", none, 8080⟩], ["241.0.0.6"], .clusterSetIP⟩
  clusters := []

/-- The export of `prod/api` by `cluster-b`. -/
def apiExport : EndpointExport where
  namespace_ := "prod"
  name := "api-cluster-b"
  spec := {
    clusterID := "cluster-b"
    serviceNamespace := "prod"
    serviceName := "api"
    type := .clusterSetIP
    exportedAtUnix := 0
    ports := [⟨[], "TCP", none, 8080⟩]
    ips := ["10.97.0.9"] }

theorem cluster_a_down_keeps_api :
    let imports := [webImportOn [⟨[], "TCP", none, 80⟩], apiImport]
    let exports := [webExportOn "cluster-a" "10.96.0.7" 80, apiExport]
    let rs₀ := buildRuleset (buildServiceDNAT imports exports noneDown)
    let rs₁ := buildRuleset (buildServiceDNAT imports exports fun id => id = "cluster-a")
    Distinct imports exports ∧ rs₀.rulesFor "241.0.0.6" = rs₁.rulesFor "241.0.0.6" ∧
      rs₁.rulesFor "241.0.0.5" = [] := by
  intro imports exports rs₀ rs₁
  have distinct : Distinct imports exports := by
    refine ⟨by decide, by decide, ?_, by decide, by decide, by decide, by decide⟩
    intro si mem
    rcases mem_pair.mp mem with rfl | rfl
    · exact ⟨_, rfl, by decide⟩
    · exact ⟨_, rfl, by decide⟩
  have collisionless : Collisionless (buildServiceDNAT imports exports noneDown) := by
    decide +kernel
  refine ⟨distinct, ?_, ?_⟩
  · refine ((failover_touches_only_affected distinct collisionless (builds_buildRuleset _)
      (builds_buildRuleset _) (mem_cons_of_mem _ mem_cons_self) rfl).1 ?_).1
    rintro ⟨e, mem, own, down⟩
    rcases mem_pair.mp mem with rfl | rfl
    · exact absurd own.2.2 (by decide)
    · exact absurd down (by decide)
  · refine ((failover_touches_only_affected distinct collisionless (builds_buildRuleset _)
      (builds_buildRuleset _) mem_cons_self rfl).2.2 ?_).1
    intro e mem own up
    rcases mem_pair.mp mem with rfl | rfl
    · exact absurd up (by decide)
    · exact absurd own.2.2 (by decide)

end DatawerxMesh.Controllers
