import DatawerxMesh.Dns.Naming

/-!
# The oldest export wins

What `PlanServiceImport` plans, read off the exports: the ports that are kept are the first
occurrences of their keys, from the oldest export on.
-/

namespace DatawerxMesh.Dns

open Go Sorting List

variable {merge : Merge} {agree : Prop} {seen : List ServicePort} {exports : List ExportedEndpoint}

/-- Ports of one number and protocol have one name. -/
def NamedAlike (ports : List ServicePort) : Prop :=
  ∀ p ∈ ports, ∀ q ∈ ports, portKey p = portKey q → p.name = q.name

theorem namedAlike_append_singleton {ports : List ServicePort} {port : ServicePort} :
    NamedAlike (ports ++ [port]) ↔
      NamedAlike ports ∧ ∀ q ∈ ports, portKey q = portKey port → q.name = port.name := by
  constructor
  · intro alike
    have old : ∀ {q}, q ∈ ports → q ∈ ports ++ [port] := mem_append_left _
    refine ⟨fun p p_mem q q_mem => alike p (old p_mem) q (old q_mem), fun q q_mem => ?_⟩
    exact alike q (old q_mem) port (mem_append_right _ (mem_singleton_self port))
  · rintro ⟨alike, last⟩ p p_mem q q_mem same
    rcases mem_append.mp p_mem with p_old | p_new
    · rcases mem_append.mp q_mem with q_old | q_new
      · exact alike p p_old q q_old same
      · rw [mem_singleton.mp q_new] at same ⊢
        exact last p p_old same
    · rw [mem_singleton.mp p_new] at same ⊢
      rcases mem_append.mp q_mem with q_old | q_new
      · exact (last q q_old same.symm).symm
      · rw [mem_singleton.mp q_new]

/-- What the merged ports and the reports say about the ports so far; `agree`: all types agreed. -/
structure Merge.Resolves (merge : Merge) (agree : Prop) (seen : List ServicePort) : Prop where
  found : ∀ key, merge.portByKey.lookup key =
    (seen.find? fun q => portKey q = key).map normalizePort
  quiet : merge.conflicts = [] ↔ agree ∧ NamedAlike seen

theorem mergePort_resolves {quote : Str → Str} {cluster : Str}
    (resolves : merge.Resolves agree seen) (port : ServicePort) :
    (mergePort quote cluster merge port).Resolves agree (seen ++ [port]) := by
  have last (key : Str) : [port].find? (fun q => portKey q = key) =
      if portKey port = key then some port else none := by
    simp [List.find?_singleton]
  have entry (key : Str) : [(portKey port, normalizePort port)].lookup key =
      if portKey port = key then some (normalizePort port) else none := by
    by_cases same : portKey port = key
    · rw [if_pos same, ← same, lookup_cons_self]
    · rw [if_neg same]
      refine lookup_eq_none_iff.mpr fun other mem => ?_
      rw [mem_singleton.mp mem]
      exact bne_iff_ne.mpr (Ne.symm same)
  rw [mergePort]
  cases first : seen.find? fun q => portKey q = portKey port with
  | none =>
    have absent := List.find?_eq_none.mp first
    rw [resolves.found, first, Option.map_none]
    refine ⟨fun key => ?_, ?_⟩
    · rw [lookup_append, resolves.found, List.find?_append, Option.map_or, last, entry]
      congr 1
      split <;> rfl
    · rw [namedAlike_append_singleton, ← and_assoc]
      refine resolves.quiet.trans (and_iff_left fun q q_mem same => ?_).symm
      exact absurd (decide_eq_true same) (absent q q_mem)
  | some existing =>
    have listed := mem_of_find?_eq_some first
    have same_key : portKey existing = portKey port := by simpa using List.find?_some first
    have found : ∀ key, merge.portByKey.lookup key =
        ((seen ++ [port]).find? fun q => portKey q = key).map normalizePort := by
      intro key
      rw [resolves.found, List.find?_append, last]
      by_cases same : portKey port = key
      · rw [← same, first, Option.some_or]
      · rw [if_neg same, Option.or_none]
    rw [resolves.found, first, Option.map_some]
    dsimp only
    split
    case isTrue differs =>
      refine ⟨found, ?_⟩
      rw [namedAlike_append_singleton]
      simp only [append_eq_nil_iff, cons_ne_self, and_false, false_iff]
      rintro ⟨-, -, alike⟩
      exact differs (alike existing listed same_key)
    case isFalse same_name =>
      refine ⟨found, ?_⟩
      rw [namedAlike_append_singleton, resolves.quiet]
      refine and_congr_right fun _ => (and_iff_left_of_imp fun alike q q_mem same => ?_).symm
      exact (alike q q_mem existing listed (same.trans same_key.symm)).trans (not_not.mp same_name)

theorem mergePorts_resolves {quote : Str → Str} (e : ExportedEndpoint)
    (resolves : merge.Resolves agree seen) :
    (mergePorts quote e merge).Resolves agree (seen ++ e.ports) := by
  rw [mergePorts]
  induction e.ports generalizing merge seen with
  | nil => rwa [append_nil]
  | cons port ports ih =>
    rw [append_cons]
    exact ih (mergePort_resolves resolves port)

/-- The ports of the exports of a type. -/
def portsOfType (type : ServiceImportType) (exports : List ExportedEndpoint) : List ServicePort :=
  (exports.filter fun e => e.type = type).flatMap ExportedEndpoint.ports

variable (quote : Str → Str) (type : ServiceImportType)

theorem mergeExport_resolves (resolves : merge.Resolves agree seen) (e : ExportedEndpoint) :
    (mergeExport quote type merge e).Resolves (agree ∧ e.type = type)
      (seen ++ portsOfType type [e]) := by
  rw [mergeExport]
  split
  case isTrue differs =>
    have none_listed : portsOfType type [e] = [] := by simp [portsOfType, differs]
    rw [none_listed, append_nil]
    refine ⟨resolves.found, ?_⟩
    simp [differs]
  case isFalse same =>
    have listed : portsOfType type [e] = e.ports := by
      simp [portsOfType, not_not.mp same]
    have started : Merge.Resolves { merge with clusters := merge.clusters ++ [e.cluster] } agree
        seen := ⟨resolves.found, resolves.quiet⟩
    have merged : (mergePorts quote e _).Resolves agree (seen ++ e.ports) :=
      mergePorts_resolves e started
    rw [listed]
    refine ⟨merged.found, merged.quiet.trans ?_⟩
    rw [and_iff_left (not_not.mp same)]

theorem merge_resolves (exports : List ExportedEndpoint) :
    (exports.foldl (mergeExport quote type) ⟨[], [], [], []⟩).Resolves
      (∀ e ∈ exports, e.type = type) (portsOfType type exports) := by
  induction exports using List.reverseRecOn with
  | nil => exact ⟨fun key => rfl, by simp [portsOfType, NamedAlike]⟩
  | append_singleton exports e ih =>
    have next := mergeExport_resolves quote type ih e
    rw [foldl_append]
    have listed : portsOfType type (exports ++ [e]) =
        portsOfType type exports ++ portsOfType type [e] := by
      rw [portsOfType, filter_append, flatMap_append]
      rfl
    rw [listed]
    refine ⟨next.found, next.quiet.trans (and_congr_left fun _ => ?_)⟩
    simp [or_imp, forall_and]

/-- The merged ports are the first occurrences of their numbers and protocols. -/
theorem Merge.Resolves.mem_ports (resolves : merge.Resolves agree seen) (keyed : merge.Keyed)
    {p : ServicePort} :
    p ∈ merge.portByKey.map Prod.snd ↔
      ∃ q, seen.find? (fun q => (q.port, protocolOf q) = (p.port, p.protocol)) = some q ∧
        p = normalizePort q := by
  have same_test {q : ServicePort} (normal : p = normalizePort q) :
      (fun other => decide ((other.port, protocolOf other) = (p.port, p.protocol))) =
        fun other => decide (portKey other = portKey p) := by
    funext other
    have protocol_eq : p.protocol = protocolOf p := by
      rw [normal, protocolOf_normalizePort]
      rfl
    refine decide_eq_decide.mpr ?_
    rw [portKey_eq_iff, Prod.mk.injEq, protocol_eq]
  constructor
  · intro mem
    obtain ⟨entry, entry_mem, rfl⟩ := mem_map.mp mem
    obtain ⟨before, after, split⟩ := append_of_mem entry_mem
    have nodup := keyed.nodup
    rw [split, map_append, map_cons, perm_middle.nodup_iff, nodup_cons] at nodup
    have lookup_eq : merge.portByKey.lookup entry.1 = some entry.2 := by
      refine lookup_eq_some_iff.mpr ⟨before, after, split, fun other in_before => ?_⟩
      refine bne_iff_ne.mpr fun same => nodup.1 (mem_append_left _ ?_)
      exact same ▸ mem_map_of_mem in_before
    rw [resolves.found, ← keyed.own entry entry_mem] at lookup_eq
    obtain ⟨q, found, normal⟩ := Option.map_eq_some_iff.mp lookup_eq
    exact ⟨q, (same_test normal.symm) ▸ found, normal.symm⟩
  · rintro ⟨q, found, normal⟩
    rw [same_test normal] at found
    have lookup_eq := resolves.found (portKey p)
    rw [found, Option.map_some, ← normal] at lookup_eq
    obtain ⟨before, after, split, -⟩ := lookup_eq_some_iff.mp lookup_eq
    rw [split]
    simp

theorem Merge.Keyed.nodup_ports (keyed : merge.Keyed) :
    ((merge.portByKey.map Prod.snd).map fun p => (p.port, protocolOf p)).Nodup := by
  have keys : merge.portByKey.map Prod.fst =
      ((merge.portByKey.map Prod.snd).map fun p => (p.port, protocolOf p)).map
        fun key => itoaInt key.1 ++ "/" ++ key.2 := by
    rw [map_map, map_map]
    exact map_congr_left fun entry mem => (keyed.own entry mem).symm
  exact Nodup.of_map _ (keys ▸ keyed.nodup)

theorem clusters_mergePort (cluster : Str) (merge : Merge)
    (port : ServicePort) : (mergePort quote cluster merge port).clusters = merge.clusters := by
  rw [mergePort]
  cases merge.portByKey.lookup (portKey port) with
  | none => rfl
  | some existing =>
    dsimp only
    split <;> rfl

theorem clusters_mergePorts (e : ExportedEndpoint) (merge : Merge) :
    (mergePorts quote e merge).clusters = merge.clusters := by
  rw [mergePorts]
  induction e.ports generalizing merge with
  | nil => rfl
  | cons port ports ih => rw [foldl_cons, ih, clusters_mergePort]

theorem clusters_merge (exports : List ExportedEndpoint) (merge : Merge) :
    (exports.foldl (mergeExport quote type) merge).clusters =
      merge.clusters ++ (exports.filter fun e => e.type = type).map ExportedEndpoint.cluster := by
  induction exports generalizing merge with
  | nil => exact (append_nil _).symm
  | cons e exports ih =>
    rw [foldl_cons, ih, mergeExport]
    by_cases same : e.type = type
    · rw [if_neg (not_not.mpr same), clusters_mergePorts]
      simp [same]
    · simp [same]

/-- With distinct times and clusters the plan is made from the oldest export on. -/
theorem planServiceImport_of_distinct (go : Runtime Site) (quote : Str → Str)
    (distinct : (exports.map fun e => (e.exportTime, e.cluster)).Nodup) {oldest : ExportedEndpoint}
    {rest : List ExportedEndpoint} (sorted : sort lessExport exports = oldest :: rest) :
    planServiceImport go quote exports =
      let merged := (oldest :: rest).foldl (mergeExport quote oldest.type) ⟨[], [], [], []⟩
      some {
        type := oldest.type
        ports := sortedPorts go merged.portByKey
        aggregatedIPs := sortedIPs go merged.ipSet
        clusters := merged.clusters
        conflicts := merged.conflicts } := by
  have go_sorted : go.sortSlice .planServiceImport lessExport exports = oldest :: rest := by
    rw [← sorted]
    exact Arranges.unique lessExport_orders (inj_on_of_nodup_map distinct) (.refl _)
      (go.sortSlice_arranges _ lessExport_orders _) (sort_arranges lessExport_orders _)
  rw [planServiceImport, go_sorted]

theorem mem_portsOfType {type : ServiceImportType} {p : ServicePort} :
    p ∈ portsOfType type exports ↔ ∃ e ∈ exports, e.type = type ∧ p ∈ e.ports := by
  simp [portsOfType, and_assoc]

theorem namedAlike_portsOfType {type : ServiceImportType} :
    NamedAlike (portsOfType type exports) ↔
      ∀ e ∈ exports, ∀ e' ∈ exports, e.type = type → e'.type = type → ∀ p ∈ e.ports, ∀ q ∈ e'.ports,
          p.port = q.port ∧ protocolOf p = protocolOf q → p.name = q.name := by
  simp only [NamedAlike, mem_portsOfType, portKey_eq_iff]
  constructor
  · intro alike e e_mem e' e'_mem type_eq type_eq' p p_mem q q_mem
    exact alike p ⟨e, e_mem, type_eq, p_mem⟩ q ⟨e', e'_mem, type_eq', q_mem⟩
  · rintro alike p ⟨e, e_mem, type_eq, p_mem⟩ q ⟨e', e'_mem, type_eq', q_mem⟩
    exact alike e e_mem e' e'_mem type_eq type_eq' p p_mem q q_mem

/-- `PlanServiceImport` resolves the exports of a service to the type of the oldest one.  It plans
the clusters, the addresses and the ports of the exports of that type, each port as its first
occurrence from the oldest export on, and it reports nothing when the types agree and no port has
two names.  A blank protocol is read as TCP. -/
theorem planServiceImport_oldest_wins (go : Runtime Site) (quote : Str → Str)
    (exports : List ExportedEndpoint) (exported : exports ≠ [])
    (distinct : (exports.map fun e => (e.exportTime, e.cluster)).Nodup) :
    ∃ plan oldest, planServiceImport go quote exports = some plan ∧
      (oldest ∈ exports ∧ ∀ e ∈ exports, e ≠ oldest → lessExport oldest e = true) ∧
      plan.type = oldest.type ∧
      plan.clusters.Perm
        ((exports.filter fun e => e.type = plan.type).map ExportedEndpoint.cluster) ∧
      plan.aggregatedIPs.Pairwise (fun a b => less a b = true) ∧
      (∀ ip, ip ∈ plan.aggregatedIPs ↔ ∃ e ∈ exports, e.type = plan.type ∧ ip ∈ e.ips) ∧
      plan.ports.Pairwise (fun p q => lessPort p q = true) ∧
      (∀ e ∈ exports, e.type = plan.type → ∀ q ∈ e.ports,
        ∃ p ∈ plan.ports, p.port = q.port ∧ p.protocol = protocolOf q) ∧
      (∀ p, p ∈ plan.ports ↔ ∃ q, (portsOfType plan.type (sort lessExport exports)).find?
          (fun q => (q.port, protocolOf q) = (p.port, p.protocol)) = some q ∧
        p = normalizePort q) ∧
      (plan.conflicts = [] ↔ (∀ e ∈ exports, e.type = plan.type) ∧
        ∀ e ∈ exports, ∀ e' ∈ exports, e.type = plan.type → e'.type = plan.type →
          ∀ p ∈ e.ports, ∀ q ∈ e'.ports,
            p.port = q.port ∧ protocolOf p = protocolOf q → p.name = q.name) := by
  have perm := sort_perm lessExport exports
  have strict := (sort_arranges lessExport_orders exports).strict lessExport_orders distinct
  cases sorted : sort lessExport exports with
  | nil => exact absurd (sorted ▸ perm).symm.eq_nil exported
  | cons oldest rest =>
    have planned := planServiceImport_of_distinct go quote distinct sorted
    rw [sorted] at perm strict
    have resolves := merge_resolves quote oldest.type (oldest :: rest)
    have keyed := merge_keyed quote oldest.type (oldest :: rest)
    have clusters := clusters_merge quote oldest.type (oldest :: rest) ⟨[], [], [], []⟩
    have nodup := nodup_ipSet quote oldest.type (oldest :: rest)
    generalize (oldest :: rest).foldl (mergeExport quote oldest.type) _ = merged at *
    have ports := go.sortSlice_arranges .sortedPorts lessPort_orders (merged.portByKey.map Prod.snd)
    refine ⟨_, oldest, planned, ⟨perm.mem_iff.mp mem_cons_self, ?_⟩, rfl, ?_, ?_,
      mem_aggregatedIPs_of_plan planned, ?_, ?_, ?_, ?_⟩
    · intro e mem differs
      have later := (mem_cons.mp (perm.mem_iff.mpr mem)).resolve_left differs
      exact (pairwise_cons.mp strict).1 e later
    · rw [clusters]
      exact (perm.filter _).map _
    · refine (sort_arranges less_orders _).strict less_orders ?_
      rw [map_id]
      exact (go.range_perm _ _).nodup_iff.mpr nodup
    · exact ports.strict lessPort_orders keyed.nodup_ports
    · intro e mem type_eq q listed
      exact (mem_ports_of_plan planned _ _).mpr ⟨e, mem, type_eq, q, listed, rfl, rfl⟩
    · intro p
      exact ports.perm.mem_iff.trans (resolves.mem_ports keyed)
    · have quiet := resolves.quiet
      simp only [namedAlike_portsOfType, perm.mem_iff] at quiet
      exact quiet

/-- Two exports disagree about the name of a port, and a younger one about the type. -/
def disagreeingExports : List ExportedEndpoint :=
  [⟨"c", .headless, [⟨"x", "UDP", none, 53⟩], ["10.0.0.3"], 9⟩,
    ⟨"b", .clusterSetIP, [⟨"web", "TCP", none, 80⟩], ["10.0.0.2"], 5⟩,
    ⟨"a", .clusterSetIP, [⟨"http", [], none, 80⟩], ["10.0.0.1", "10.0.0.2"], 5⟩]

theorem disagreeingExports_resolved :
    (∃ plan, planServiceImport (.stable Site) id disagreeingExports = some plan ∧
      plan.ports = [⟨"http", "TCP", none, 80⟩] ∧ plan.conflicts.length = 2) ∧
    ∃ plan oldest, planServiceImport (.stable Site) id disagreeingExports = some plan ∧
      (oldest ∈ disagreeingExports ∧
        ∀ e ∈ disagreeingExports, e ≠ oldest → lessExport oldest e = true) ∧
      plan.type = oldest.type := by
  refine ⟨⟨_, rfl, by decide, by decide⟩, ?_⟩
  obtain ⟨plan, oldest, planned, minimal, type_eq, -⟩ :=
    planServiceImport_oldest_wins (.stable Site) id disagreeingExports (by decide) (by decide)
  exact ⟨plan, oldest, planned, minimal, type_eq⟩

/-- An export whose protocol is a blank. -/
def blankExport : ExportedEndpoint :=
  ⟨"a", .clusterSetIP, [⟨"http", " ", none, 80⟩], [], 0⟩

/-- A protocol that is not empty but blank is planned as TCP as well. -/
theorem blank_protocol_planned_as_tcp :
    ∃ plan, planServiceImport (.stable Site) id [blankExport] = some plan ∧
      plan.type = blankExport.type ∧
      (∃ q ∈ blankExport.ports, q.protocol ≠ [] ∧
        ¬ ∃ p ∈ plan.ports, p.port = q.port ∧ p.protocol = q.protocol) ∧
      plan.ports = [⟨"http", "TCP", none, 80⟩] := by
  refine ⟨_, rfl, by decide, ?_, by decide⟩
  exact ⟨⟨"http", " ", none, 80⟩, by decide, by decide, by decide⟩

end DatawerxMesh.Dns
