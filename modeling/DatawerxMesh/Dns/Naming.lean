import DatawerxMesh.Dns.Aggregate

/-!
# Resolving the exports of a service

`PlanServiceImport` of `pkg/dns/naming.go`: the exports of one service are merged from the oldest
on, which depends on the exports and not on their order.
-/

namespace DatawerxMesh.Dns

open Go Sorting List

/-- `ImportPlan` of a service that is exported. -/
structure ImportPlan where
  type : ServiceImportType
  ports : List ServicePort
  aggregatedIPs : List Str
  clusters : List Str
  conflicts : List Str
  deriving DecidableEq

variable (p : ServicePort)

/-- The protocol, TCP by default. -/
def protocolOf : Str := if isBlank p.protocol then "TCP" else p.protocol

/-- What makes two ports the same. -/
def portKey : Str := itoaInt p.port ++ "/" ++ protocolOf p

/-- A port with its protocol spelled out. -/
def normalizePort : ServicePort := { p with protocol := protocolOf p }

/-- The variables of the loop.  The ports stand under their keys, in the order of `portKeys`. -/
structure Merge where
  conflicts : List Str
  clusters : List Str
  portByKey : List (Str × ServicePort)
  ipSet : List Str

variable {merge : Merge} {quote : Str → Str} {cluster : Str} {type : ServiceImportType}

/-- The body of the loop of `mergePorts`, with `%q` given by `quote`. -/
def mergePort (quote : Str → Str) (cluster : Str) (merge : Merge) (port : ServicePort) : Merge :=
  let key := portKey port
  match merge.portByKey.lookup key with
  | some existing =>
    if existing.name ≠ port.name then
      { merge with
        conflicts := merge.conflicts ++
          ["cluster " ++ quote cluster ++ ": port " ++ itoaInt port.port ++ "/" ++
            protocolOf port ++ " name " ++ quote port.name ++ " conflicts with " ++
            quote existing.name] }
    else merge
  | none => { merge with portByKey := merge.portByKey ++ [(key, normalizePort port)] }

/-- The ports of one export. -/
def mergePorts (quote : Str → Str) (e : ExportedEndpoint) (merge : Merge) : Merge :=
  e.ports.foldl (mergePort quote e.cluster) merge

/-- The body of the loop of `PlanServiceImport`. -/
def mergeExport (quote : Str → Str) (type : ServiceImportType) (merge : Merge)
    (e : ExportedEndpoint) : Merge :=
  if e.type ≠ type then
    { merge with
      conflicts := merge.conflicts ++
        ["cluster " ++ quote e.cluster ++ ": type " ++ quote e.type.text ++
          " conflicts with resolved type " ++ quote type.text] }
  else
    let merged := mergePorts quote e { merge with clusters := merge.clusters ++ [e.cluster] }
    { merged with ipSet := e.ips.foldl (fun ips ip => ips.insert ip) merged.ipSet }

/-- The comparison of exports: oldest first, then by cluster. -/
def lessExport : ExportedEndpoint → ExportedEndpoint → Bool :=
  byField ExportedEndpoint.exportTime (fun a b => decide (a < b)) lessCluster

/-- The order of ports. -/
def lessPort : ServicePort → ServicePort → Bool :=
  byField ServicePort.port (fun a b => decide (a < b)) fun a b => less (protocolOf a) (protocolOf b)

/-- The merged ports, sorted. -/
def sortedPorts (go : Runtime Site) (portByKey : List (Str × ServicePort)) : List ServicePort :=
  go.sortSlice .sortedPorts lessPort (portByKey.map Prod.snd)

/-- The merged addresses, sorted. -/
def sortedIPs (go : Runtime Site) (ipSet : List Str) : List Str :=
  sortStrings (go.range .sortedIPs ipSet)

/-- `PlanServiceImport`; `Exists` is false without exports. -/
def planServiceImport (go : Runtime Site) (quote : Str → Str) (exports : List ExportedEndpoint) :
    Option ImportPlan :=
  let sorted := go.sortSlice .planServiceImport lessExport exports
  match sorted with
  | [] => none
  | oldest :: _ =>
    let merged := sorted.foldl (mergeExport quote oldest.type) ⟨[], [], [], []⟩
    some {
      type := oldest.type
      ports := sortedPorts go merged.portByKey
      aggregatedIPs := sortedIPs go merged.ipSet
      clusters := merged.clusters
      conflicts := merged.conflicts }

theorem lessExport_orders : Orders lessExport fun e => (e.exportTime, e.cluster) :=
  Orders.byField Orders.lt lessCluster_orders

theorem lessPort_orders : Orders lessPort fun p => (p.port, protocolOf p) :=
  Orders.byField Orders.lt (Orders.onField less_orders)

theorem protocolOf_normalizePort :
    protocolOf (normalizePort p) = protocolOf p := by
  have tcp : isBlank "TCP" = false := by decide +kernel
  by_cases blank : isBlank p.protocol = true
  · simp [protocolOf, normalizePort, blank, tcp]
  · simp [protocolOf, normalizePort, blank]

theorem portKey_normalizePort : portKey (normalizePort p) = portKey p := by
  rw [portKey, protocolOf_normalizePort, portKey, normalizePort]

/-- Each port stands once, under its own key. -/
structure Merge.Keyed (merge : Merge) : Prop where
  own : ∀ entry ∈ merge.portByKey, portKey entry.2 = entry.1
  nodup : (merge.portByKey.map Prod.fst).Nodup

theorem mergePort_keyed (keyed : merge.Keyed) (port : ServicePort) :
    (mergePort quote cluster merge port).Keyed := by
  rw [mergePort]
  cases found : merge.portByKey.lookup (portKey port) with
  | some existing =>
    dsimp only
    split
    · exact ⟨keyed.own, keyed.nodup⟩
    · exact keyed
  | none =>
    refine ⟨?_, ?_⟩
    · intro entry mem
      rcases mem_append.mp mem with old | new
      · exact keyed.own entry old
      · rw [mem_singleton.mp new]
        exact portKey_normalizePort port
    · rw [map_append, nodup_append]
      refine ⟨keyed.nodup, nodup_singleton _, fun key old other new => ?_⟩
      rw [mem_singleton.mp new]
      rintro rfl
      obtain ⟨entry, mem, key_eq⟩ := mem_map.mp old
      have differs := lookup_eq_none_iff.mp found entry mem
      simp [key_eq] at differs

theorem mergeExport_keyed (keyed : merge.Keyed) (e : ExportedEndpoint) :
    (mergeExport quote type merge e).Keyed := by
  rw [mergeExport]
  split
  · exact ⟨keyed.own, keyed.nodup⟩
  · have started : Merge.Keyed { merge with clusters := merge.clusters ++ [e.cluster] } :=
      ⟨keyed.own, keyed.nodup⟩
    have merged : (mergePorts quote e _).Keyed :=
      List.foldlRecOn e.ports _ started fun _ keyed port _ => mergePort_keyed keyed port
    exact ⟨merged.own, merged.nodup⟩

theorem merge_keyed (quote : Str → Str) (type : ServiceImportType)
    (exports : List ExportedEndpoint) :
    (exports.foldl (mergeExport quote type) ⟨[], [], [], []⟩).Keyed :=
  List.foldlRecOn exports _ ⟨by simp, by simp⟩ fun _ keyed e _ => mergeExport_keyed keyed e

theorem Merge.Keyed.ports_injOn (keyed : merge.Keyed) :
    Set.InjOn (fun p => (p.port, protocolOf p)) {p | p ∈ merge.portByKey.map Prod.snd} := by
  intro left left_mem right right_mem same
  obtain ⟨first, first_mem, rfl⟩ := mem_map.mp left_mem
  obtain ⟨second, second_mem, rfl⟩ := mem_map.mp right_mem
  obtain ⟨same_port, same_protocol⟩ := Prod.mk.inj same
  have same_key : first.1 = second.1 := by
    rw [← keyed.own first first_mem, ← keyed.own second second_mem, portKey, portKey, same_port,
      same_protocol]
  rw [inj_on_of_nodup_map keyed.nodup first_mem second_mem same_key]

/-- Every port stands in normal form. -/
def Merge.Normal (merge : Merge) : Prop :=
  ∀ entry ∈ merge.portByKey, entry.2.protocol = protocolOf entry.2

theorem mergePort_normal (normal : merge.Normal) (port : ServicePort) :
    (mergePort quote cluster merge port).Normal := by
  rw [mergePort]
  cases merge.portByKey.lookup (portKey port) with
  | some existing =>
    dsimp only
    split
    · exact normal
    · exact normal
  | none =>
    intro entry mem
    rcases mem_append.mp mem with old | new
    · exact normal entry old
    · rw [mem_singleton.mp new]
      exact (protocolOf_normalizePort port).symm

theorem mem_keys_mergePort {port : ServicePort} {key : Str} :
    key ∈ (mergePort quote cluster merge port).portByKey.map Prod.fst ↔
      key ∈ merge.portByKey.map Prod.fst ∨ portKey port = key := by
  rw [mergePort]
  cases found : merge.portByKey.lookup (portKey port) with
  | some existing =>
    have listed : portKey port ∈ merge.portByKey.map Prod.fst := by
      have found_some : (merge.portByKey.lookup (portKey port)).isSome := by simp [found]
      obtain ⟨entry, mem, same⟩ := lookup_isSome_iff.mp found_some
      exact mem_map.mpr ⟨entry, mem, (eq_of_beq same).symm⟩
    have kept : key ∈ merge.portByKey.map Prod.fst ↔
        key ∈ merge.portByKey.map Prod.fst ∨ portKey port = key :=
      ⟨Or.inl, fun either => either.elim id fun same => same ▸ listed⟩
    dsimp only
    split
    · exact kept
    · exact kept
  | none => simp [eq_comm]

theorem mem_keys_mergeExport {e : ExportedEndpoint} {key : Str} :
    key ∈ (mergeExport quote type merge e).portByKey.map Prod.fst ↔
      key ∈ merge.portByKey.map Prod.fst ∨
        (e.type = type ∧ ∃ port ∈ e.ports, portKey port = key) := by
  rw [mergeExport]
  by_cases same : e.type = type
  · rw [if_neg (not_not.mpr same)]
    have step_iff : ∀ (merge : Merge) (port : ServicePort),
        key ∈ (mergePort quote e.cluster merge port).portByKey.map Prod.fst ↔
          key ∈ merge.portByKey.map Prod.fst ∨ portKey port = key := fun _ _ => mem_keys_mergePort
    refine (Accumulation.foldl_iff (fun merge : Merge => key ∈ merge.portByKey.map Prod.fst)
      step_iff e.ports _).trans ?_
    simp [same]
  · simp [same]

theorem mergeExport_normal (normal : merge.Normal) (e : ExportedEndpoint) :
    (mergeExport quote type merge e).Normal := by
  rw [mergeExport]
  split
  · exact normal
  · have started : Merge.Normal { merge with clusters := merge.clusters ++ [e.cluster] } := normal
    exact List.foldlRecOn e.ports (motive := Merge.Normal) _ started
      fun _ normal port _ => mergePort_normal normal port

theorem merge_normal (quote : Str → Str) (type : ServiceImportType)
    (exports : List ExportedEndpoint) :
    (exports.foldl (mergeExport quote type) ⟨[], [], [], []⟩).Normal :=
  List.foldlRecOn exports (motive := Merge.Normal) _ (fun _ mem => by cases mem)
    fun _ normal e _ => mergeExport_normal normal e

theorem mem_keys_merge (quote : Str → Str) (type : ServiceImportType)
    (exports : List ExportedEndpoint) (key : Str) :
    key ∈ (exports.foldl (mergeExport quote type) ⟨[], [], [], []⟩).portByKey.map Prod.fst ↔
      ∃ e ∈ exports, e.type = type ∧ ∃ port ∈ e.ports, portKey port = key := by
  have step_iff : ∀ (merge : Merge) (e : ExportedEndpoint),
      key ∈ (mergeExport quote type merge e).portByKey.map Prod.fst ↔
        key ∈ merge.portByKey.map Prod.fst ∨
          (e.type = type ∧ ∃ port ∈ e.ports, portKey port = key) := fun _ _ => mem_keys_mergeExport
  refine (Accumulation.foldl_iff (fun merge : Merge => key ∈ merge.portByKey.map Prod.fst)
    step_iff exports _).trans ?_
  simp

theorem portKey_eq_iff {p q : ServicePort} :
    portKey p = portKey q ↔ p.port = q.port ∧ protocolOf p = protocolOf q := by
  refine ⟨itoaInt_slash_injective, fun ⟨same_port, same_protocol⟩ => ?_⟩
  rw [portKey, portKey, same_port, same_protocol]

theorem mem_ports_of_plan {go : Runtime Site} {exports : List ExportedEndpoint} {plan : ImportPlan}
    (planned : planServiceImport go quote exports = some plan) (number : Int) (protocol : Str) :
    (∃ p ∈ plan.ports, p.port = number ∧ p.protocol = protocol) ↔
      ∃ e ∈ exports, e.type = plan.type ∧
        ∃ p ∈ e.ports, p.port = number ∧ protocolOf p = protocol := by
  have perm := (go.sortSlice_arranges .planServiceImport lessExport_orders exports).perm
  simp only [planServiceImport] at planned
  cases sorted : go.sortSlice .planServiceImport lessExport exports with
  | nil => simp [sorted] at planned
  | cons oldest rest =>
    rw [sorted] at perm planned
    obtain rfl := Option.some.inj planned
    have keyed := merge_keyed quote oldest.type (oldest :: rest)
    have normal := merge_normal quote oldest.type (oldest :: rest)
    have keys := mem_keys_merge quote oldest.type (oldest :: rest)
    generalize (oldest :: rest).foldl (mergeExport quote oldest.type) _ = merged at *
    have ports_perm := (go.sortSlice_arranges .sortedPorts lessPort_orders
      (merged.portByKey.map Prod.snd)).perm
    simp only [perm.mem_iff] at keys
    constructor
    · rintro ⟨p, mem, rfl, rfl⟩
      obtain ⟨entry, entry_mem, rfl⟩ := mem_map.mp (ports_perm.mem_iff.mp mem)
      obtain ⟨e, e_mem, type_eq, q, q_mem, same⟩ := (keys _).mp (mem_map_of_mem entry_mem)
      rw [← keyed.own entry entry_mem, portKey_eq_iff] at same
      exact ⟨e, e_mem, type_eq, q, q_mem, same.1, same.2.trans (normal entry entry_mem).symm⟩
    · rintro ⟨e, e_mem, type_eq, q, q_mem, rfl, rfl⟩
      obtain ⟨entry, entry_mem, same⟩ :=
        mem_map.mp ((keys _).mpr ⟨e, e_mem, type_eq, q, q_mem, rfl⟩)
      rw [← keyed.own entry entry_mem, portKey_eq_iff] at same
      refine ⟨entry.2, ports_perm.mem_iff.mpr (mem_map_of_mem entry_mem), same.1, ?_⟩
      exact (normal entry entry_mem).trans same.2

theorem ipSet_mergePort (quote : Str → Str) (cluster : Str) (merge : Merge) (port : ServicePort) :
    (mergePort quote cluster merge port).ipSet = merge.ipSet := by
  rw [mergePort]
  cases merge.portByKey.lookup (portKey port) with
  | none => rfl
  | some existing =>
    dsimp only
    split <;> rfl

theorem ipSet_mergePorts (quote : Str → Str) (e : ExportedEndpoint) (merge : Merge) :
    (mergePorts quote e merge).ipSet = merge.ipSet := by
  rw [mergePorts]
  induction e.ports generalizing merge with
  | nil => rfl
  | cons port ports ih => rw [foldl_cons, ih, ipSet_mergePort]

theorem mem_ipSet_mergeExport (quote : Str → Str) (type : ServiceImportType) (ip : Str)
    (merge : Merge) (e : ExportedEndpoint) :
    ip ∈ (mergeExport quote type merge e).ipSet ↔
      ip ∈ merge.ipSet ∨ e.type = type ∧ ip ∈ e.ips := by
  rw [mergeExport]
  by_cases same : e.type = type
  · rw [if_neg (not_not.mpr same)]
    have step_iff : ∀ (ips : List Str) (other : Str),
        ip ∈ ips.insert other ↔ ip ∈ ips ∨ ip = other := fun ips other => by
      rw [mem_insert_iff, or_comm]
    refine (Accumulation.foldl_iff (fun ips : List Str => ip ∈ ips) step_iff e.ips _).trans ?_
    rw [ipSet_mergePorts]
    simp [same]
  · simp [same]

theorem mem_aggregatedIPs_of_plan {go : Runtime Site} {exports : List ExportedEndpoint}
    {plan : ImportPlan} (planned : planServiceImport go quote exports = some plan) (ip : Str) :
    ip ∈ plan.aggregatedIPs ↔ ∃ e ∈ exports, e.type = plan.type ∧ ip ∈ e.ips := by
  have perm := (go.sortSlice_arranges .planServiceImport lessExport_orders exports).perm
  simp only [planServiceImport] at planned
  cases sorted : go.sortSlice .planServiceImport lessExport exports with
  | nil => simp [sorted] at planned
  | cons oldest rest =>
    rw [sorted] at perm planned
    obtain rfl := Option.some.inj planned
    rw [sortedIPs, sortStrings, mem_sort, (go.range_perm _ _).mem_iff]
    refine (Accumulation.foldl_iff (fun merge : Merge => ip ∈ merge.ipSet)
      (mem_ipSet_mergeExport quote oldest.type ip) (oldest :: rest) _).trans ?_
    simp only [perm.mem_iff, not_mem_nil, false_or]

/-- Exports of one time and one cluster, which `PlanServiceImport` takes in any order, have the same
type and ports. -/
def Untied (exports : List ExportedEndpoint) : Prop :=
  ∀ a ∈ exports, ∀ b ∈ exports, a.exportTime = b.exportTime → a.cluster = b.cluster →
    a.type = b.type ∧ a.ports = b.ports

/-- An export without its addresses. -/
def ExportedEndpoint.bare (e : ExportedEndpoint) : ExportedEndpoint := { e with ips := [] }

/-- A merge without its addresses. -/
def Merge.bare (merge : Merge) : Merge := { merge with ipSet := [] }

theorem mergePort_bare (quote : Str → Str) (cluster : Str) (merge : Merge) (port : ServicePort) :
    mergePort quote cluster merge.bare port = (mergePort quote cluster merge port).bare := by
  rw [mergePort, mergePort, Merge.bare]
  cases merge.portByKey.lookup (portKey port) with
  | none => rfl
  | some existing =>
    dsimp only
    split <;> rfl

theorem mergeExport_bare (quote : Str → Str) (type : ServiceImportType) (merge : Merge)
    (e : ExportedEndpoint) :
    mergeExport quote type merge.bare e.bare = (mergeExport quote type merge e).bare := by
  rw [mergeExport, mergeExport]
  by_cases differs : e.type ≠ type
  · rw [if_pos differs, if_pos (show e.bare.type ≠ type from differs)]
    rfl
  · rw [if_neg differs, if_neg (show ¬ e.bare.type ≠ type from differs)]
    have ports : ∀ merge : Merge, mergePorts quote e merge.bare = (mergePorts quote e merge).bare :=
      fun merge => foldl_hom Merge.bare (mergePort_bare quote e.cluster)
    exact ports { merge with clusters := merge.clusters ++ [e.cluster] }

theorem nodup_ipSet (quote : Str → Str) (type : ServiceImportType)
    (exports : List ExportedEndpoint) :
    (exports.foldl (mergeExport quote type) ⟨[], [], [], []⟩).ipSet.Nodup := by
  refine List.foldlRecOn exports (motive := fun merge : Merge => merge.ipSet.Nodup) _
    nodup_nil fun merge nodup e _ => ?_
  rw [mergeExport]
  split
  · exact nodup
  · refine List.foldlRecOn e.ips (motive := Nodup) _ ?_ fun _ ips ip _ => ips.insert
    rwa [ipSet_mergePorts]

/-- Two runs resolve the exports alike, in whatever order they see them. -/
theorem planServiceImport_eq (left_run right_run : Runtime Site) (quote : Str → Str)
    {left right : List ExportedEndpoint} (untied : Untied left) (perm : left.Perm right) :
    planServiceImport left_run quote left = planServiceImport right_run quote right := by
  have left_arranges := left_run.sortSlice_arranges .planServiceImport lessExport_orders left
  have right_arranges := right_run.sortSlice_arranges .planServiceImport lessExport_orders right
  rw [planServiceImport, planServiceImport]
  generalize left_run.sortSlice .planServiceImport lessExport left = first at left_arranges
  generalize right_run.sortSlice .planServiceImport lessExport right = second at right_arranges
  have members : ∀ e, e ∈ first ↔ e ∈ second := fun e =>
    ((left_arranges.perm.trans perm).trans right_arranges.perm.symm).mem_iff
  -- The sorted exports differ at most in the addresses of ties.
  have same : first.map ExportedEndpoint.bare = second.map ExportedEndpoint.bare := by
    have bares : ∀ {items result}, Arranges lessExport items result →
        Arranges lessExport (items.map ExportedEndpoint.bare) (result.map ExportedEndpoint.bare) :=
      fun arranges => Arranges.map_field arranges
    refine Arranges.unique lessExport_orders ?_ (perm.map _) (bares left_arranges)
      (bares right_arranges)
    intro a a_mem b b_mem tie
    obtain ⟨a, a_left, rfl⟩ := mem_map.mp a_mem
    obtain ⟨b, b_left, rfl⟩ := mem_map.mp b_mem
    obtain ⟨time_eq, cluster_eq⟩ := Prod.mk.inj tie
    obtain ⟨type_eq, ports_eq⟩ := untied a a_left b b_left time_eq cluster_eq
    cases a
    cases b
    simp_all [ExportedEndpoint.bare]
  have merges : ∀ (type : ServiceImportType) (exports : List ExportedEndpoint),
      (exports.foldl (mergeExport quote type) ⟨[], [], [], []⟩).bare =
        (exports.map ExportedEndpoint.bare).foldl (mergeExport quote type) ⟨[], [], [], []⟩ := by
    intro type exports
    rw [foldl_map]
    exact (foldl_hom Merge.bare (mergeExport_bare quote type)).symm
  cases first with
  | nil => rw [map_eq_nil_iff.mp same.symm]
  | cons oldest rest =>
    cases second with
    | nil => cases same
    | cons oldest' rest' =>
      have type_eq : oldest.bare.type = oldest'.bare.type :=
        congrArg ExportedEndpoint.type (List.cons.inj same).1
      change oldest.type = oldest'.type at type_eq
      dsimp only
      rw [← type_eq]
      have bare_eq := (merges oldest.type _).trans ((congrArg _ same).trans
        (merges oldest.type _).symm)
      have keyed := merge_keyed quote oldest.type (oldest :: rest)
      have ips : sortedIPs left_run _ = sortedIPs right_run _ := sort_eq_of_mem_iff less_orders
        (fun _ _ => id) ((left_run.range_perm _ _).nodup_iff.mpr (nodup_ipSet quote oldest.type
          (oldest :: rest))) ((right_run.range_perm _ _).nodup_iff.mpr (nodup_ipSet quote
            oldest.type (oldest' :: rest'))) fun ip => by
        have ipSet_iff := fun exports => Accumulation.foldl_iff (fun merge : Merge =>
          ip ∈ merge.ipSet) (mem_ipSet_mergeExport quote oldest.type ip) exports ⟨[], [], [], []⟩
        rw [(left_run.range_perm _ _).mem_iff, (right_run.range_perm _ _).mem_iff, ipSet_iff,
          ipSet_iff]
        simp only [members]
      rw [ips]
      generalize (oldest :: rest).foldl (mergeExport quote oldest.type) _ = merged at bare_eq keyed
      generalize (oldest' :: rest').foldl (mergeExport quote oldest.type) _ = merged' at bare_eq ⊢
      obtain ⟨_, _, _, _⟩ := merged
      obtain ⟨_, _, _, _⟩ := merged'
      obtain ⟨rfl, rfl, rfl, -⟩ := Merge.mk.inj bare_eq
      have ports : sortedPorts left_run _ = sortedPorts right_run _ :=
        left_run.sortSlice_eq right_run _ lessPort_orders keyed.ports_injOn (Perm.refl _)
      rw [ports]

end DatawerxMesh.Dns
