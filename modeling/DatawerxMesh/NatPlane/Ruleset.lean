import DatawerxMesh.Go.Hash
import DatawerxMesh.NatPlane.Rules
import DatawerxMesh.Go.Casing
import Mathlib.Data.List.Dedup

/-!
# The ClusterSetIP planner

`pkg/nat/plan.go`: every port of a service gets a chain that picks a backend, and every backend of
the port a chain that rewrites the destination.  `BuildRuleset` sorts with an unstable sort; the
rules of every result are those of the expansions of its services.
-/

namespace DatawerxMesh.NatPlane

open Go List Sorting

/-- The chain of all services. -/
def rootChain : Str := "DWX-CLUSTERSET"

/-- Chains of service ports. -/
def svcChainPrefix : Str := "DWX-SVC-"

/-- Chains of backends. -/
def sepChainPrefix : Str := "DWX-SEP-"

/-- A port of a service. -/
structure PortDNAT where
  protocol : Str
  port : Int
  deriving DecidableEq

/-- A service to translate. -/
structure ServiceDNAT where
  namespace_ : Str
  name : Str
  vip : Str
  ports : List PortDNAT
  backends : List Str
  deriving DecidableEq

/-- Chains and their rules. -/
structure Ruleset where
  chains : List Str
  rules : List Rule
  deriving DecidableEq

/-- The range of one address. -/
def hostCIDR (ip : Str) : Str := if isIPv6 ip then ip ++ "/128" else ip ++ "/32"

/-- An address with a port. -/
def dnatTarget (ip port : Str) : Str :=
  if isIPv6 ip then "[" ++ ip ++ "]:" ++ port else ip ++ ":" ++ port

/-- The protocol in lower case, TCP by default. -/
def normalizeProto (p : Str) : Str :=
  let p := toLower (trimSpace p)
  if p = [] then "tcp" else p

/-- A chain name from a hash. -/
def hashChain (kind : Str) (parts : List Str) : Str :=
  kind ++ (base32Encode (sha256 (join [0] parts))).take 16

/-- Each text once, sorted. -/
def uniqueSortedStrings (strings : List Str) : List Str :=
  sortStrings (strings.filter (· ≠ [])).dedup

/-- The key under which `sortedPorts` keeps a port. -/
def portKey (p : PortDNAT) : Str := itoaInt p.port ++ "/" ++ p.protocol

/-- The order of `sortedPorts`. -/
def lessPort : PortDNAT → PortDNAT → Bool :=
  Sorting.byField PortDNAT.port (fun a b => decide (a < b)) fun a b => less a.protocol b.protocol

/-- `sortedPorts`: the first port of every key. -/
def sortedPorts (ports : List PortDNAT) : List PortDNAT :=
  Sorting.sort lessPort (Accumulation.firstOf portKey
      (ports.map fun p => { p with protocol := normalizeProto p.protocol }))

/-- The order of services. -/
def lessService : ServiceDNAT → ServiceDNAT → Bool :=
  Sorting.byField ServiceDNAT.namespace_ less fun a b => less a.name b.name

/-- One call of `appendPortRules`: a port of a service with the backends of the service. -/
structure Expansion where
  service : ServiceDNAT
  port : PortDNAT
  backends : List Str

namespace Expansion

variable (x : Expansion)

/-- The protocol of the port. -/
def proto : Str := normalizeProto x.port.protocol

/-- The text of the port. -/
def portStr : Str := itoaInt x.port.port

/-- The chain that picks a backend. -/
def svcChain : Str :=
  hashChain svcChainPrefix [x.service.namespace_, x.service.name, x.proto, x.portStr]

/-- The chain that rewrites to a backend. -/
def sepChain (backend : Str) : Str :=
  hashChain sepChainPrefix [x.service.namespace_, x.service.name, x.proto, x.portStr, backend]

/-- The jump from the root chain. -/
def rootRule : Rule where
  chain := rootChain
  args := ["-d", hostCIDR x.service.vip, "-p", x.proto, "-m", x.proto, "--dport",
    x.portStr, "-j", x.svcChain]

/-- The rules pick one of the chains with the same probability, the last one without a condition. -/
def balance (svcChain : Str) : List Str → List Rule
  | [] => []
  | [last] => [⟨svcChain, ["-j", last]⟩]
  | first :: rest =>
    ⟨svcChain, ["-m", "statistic", "--mode", "random", "--probability",
      formatReciprocal (rest.length + 1), "-j", first]⟩ :: balance svcChain rest

/-- The rule that rewrites to a backend. -/
def dnatRule (backend : Str) : Rule where
  chain := x.sepChain backend
  args := ["-p", x.proto, "-j", "DNAT", "--to-destination",
    dnatTarget backend x.portStr]

/-- The chains that `appendPortRules` registers. -/
def chains : List Str := x.svcChain :: x.backends.map x.sepChain

/-- The rules that `appendPortRules` appends. -/
def rules : List Rule :=
  x.rootRule :: (balance x.svcChain (x.backends.map x.sepChain) ++ x.backends.map x.dnatRule)

end Expansion

/-- The loops of `BuildRuleset`. -/
def expansions (services : List ServiceDNAT) : List Expansion :=
  ((Sorting.sort lessService services).filter fun s =>
    !(s.vip == [] || s.ports == [] || s.backends == [])).flatMap fun s =>
      (sortedPorts s.ports).map fun p => ⟨s, p, uniqueSortedStrings s.backends⟩

/-- The planner with a stable sort. -/
def buildRuleset (services : List ServiceDNAT) : Ruleset where
  chains := sortStrings ((expansions services).flatMap Expansion.chains).dedup
  rules := (expansions services).flatMap Expansion.rules

theorem mem_uniqueSortedStrings {strings : List Str} {s : Str} :
    s ∈ uniqueSortedStrings strings ↔ s ∈ strings ∧ s ≠ [] := by
  simp [uniqueSortedStrings, sortStrings]

theorem sortedPorts_ne_nil {ports : List PortDNAT} : sortedPorts ports ≠ [] ↔ ports ≠ [] := by
  rw [sortedPorts, ne_eq]
  rw [Accumulation.nil_iff_of_perm (Sorting.sort_perm _ _), Accumulation.firstOf_eq_nil,
    map_eq_nil_iff]

variable {services : List ServiceDNAT}

theorem mem_expansions {x : Expansion} :
    x ∈ expansions services ↔ x.service ∈ services ∧ x.service.vip ≠ [] ∧
      x.service.backends ≠ [] ∧ x.port ∈ sortedPorts x.service.ports ∧
      x.backends = uniqueSortedStrings x.service.backends := by
  obtain ⟨service, port, backends⟩ := x
  have some_port : port ∈ sortedPorts service.ports → service.ports ≠ [] := fun mem =>
    sortedPorts_ne_nil.mp (ne_nil_of_mem mem)
  simp only [expansions, mem_flatMap, mem_filter, Sorting.mem_sort, Bool.not_eq_true',
    Bool.or_eq_false_iff, beq_eq_false_iff_ne, mem_map, Expansion.mk.injEq]
  constructor
  · rintro ⟨s, ⟨mem, ⟨vip, -⟩, backends_ne⟩, p, in_ports, rfl, rfl, rfl⟩
    exact ⟨mem, vip, backends_ne, in_ports, rfl⟩
  · rintro ⟨mem, vip, backends_ne, in_ports, rfl⟩
    exact ⟨service, ⟨mem, ⟨vip, some_port in_ports⟩, backends_ne⟩, port, in_ports, rfl, rfl, rfl⟩

theorem dnatRule_mem_rules {x : Expansion}
    (mem : x ∈ expansions services) {backend : Str} (in_backends : backend ∈ x.backends) :
    x.dnatRule backend ∈ (buildRuleset services).rules := by
  refine mem_flatMap.mpr ⟨x, mem, mem_cons_of_mem _ (mem_append_right _ ?_)⟩
  exact mem_map_of_mem in_backends

/-- The loops of `BuildRuleset` over the sorted services. -/
def expansionsOf (arranged : List ServiceDNAT) : List Expansion :=
  (arranged.filter fun s => !(s.vip == [] || s.ports == [] || s.backends == [])).flatMap fun s =>
    (sortedPorts s.ports).map fun p => ⟨s, p, uniqueSortedStrings s.backends⟩

/-- `BuildRuleset` after the sort. -/
def rulesetOf (arranged : List ServiceDNAT) : Ruleset where
  chains := sortStrings ((expansionsOf arranged).flatMap Expansion.chains).dedup
  rules := (expansionsOf arranged).flatMap Expansion.rules

/-- A result the planner may return. -/
def Builds (services : List ServiceDNAT) (rs : Ruleset) : Prop :=
  ∃ arranged, Arranges lessService services arranged ∧ rs = rulesetOf arranged

theorem lessService_orders :
    Orders lessService fun s : ServiceDNAT => (s.namespace_, s.name) :=
  less_orders.byField less_orders.onField

theorem builds_buildRuleset (services : List ServiceDNAT) :
    Builds services (buildRuleset services) :=
  ⟨_, sort_arranges lessService_orders services, rfl⟩

theorem normalizeProto_normalizeProto (p : Str) :
    normalizeProto (normalizeProto p) = normalizeProto p := by
  by_cases empty : toLower (trimSpace p) = []
  · have tcp : normalizeProto p = "tcp" := if_pos empty
    rw [tcp]
    decide +kernel
  · have lower : normalizeProto p = toLower (trimSpace p) := if_neg empty
    rw [lower, normalizeProto, trimSpace_toLower, trimSpace_trimSpace, toLower_toLower,
      if_neg empty]

theorem normalizeProto_toLower (p : Str) : normalizeProto (toLower p) = normalizeProto p := by
  rw [normalizeProto, normalizeProto, trimSpace_toLower, toLower_toLower]

theorem portKey_injective {p q : PortDNAT} (same : portKey p = portKey q) : p = q := by
  obtain ⟨port_eq, protocol_eq⟩ := itoaInt_slash_injective same
  cases p
  cases q
  simp only [PortDNAT.mk.injEq]
  exact ⟨protocol_eq, port_eq⟩

/-- The port with its protocol spelled out. -/
def PortDNAT.normal (p : PortDNAT) : PortDNAT := { p with protocol := normalizeProto p.protocol }

theorem mem_sortedPorts {ports : List PortDNAT} {p : PortDNAT} :
    p ∈ sortedPorts ports ↔ ∃ q ∈ ports, q.normal = p := by
  rw [sortedPorts, mem_sort, Accumulation.mem_firstOf fun _ _ => portKey_injective, mem_map]
  rfl

theorem mem_expansionsOf {services arranged : List ServiceDNAT}
    (arranges : Arranges lessService services arranged) {x : Expansion} :
    x ∈ expansionsOf arranged ↔ x ∈ expansions services := by
  have same := arranges.perm.trans (sort_perm lessService services).symm
  exact ((same.filter _).flatMap_right _).mem_iff

theorem Builds.mem_rules {rs : Ruleset} (builds : Builds services rs)
    {rule : Rule} : rule ∈ rs.rules ↔ ∃ x ∈ expansions services, rule ∈ x.rules := by
  obtain ⟨arranged, arranges, rfl⟩ := builds
  simp only [rulesetOf, mem_flatMap, mem_expansionsOf arranges]

/-- A rule that rewrites traffic of a protocol to a target. -/
def rewriteArgs (proto target : Str) : List Str :=
  ["-p", proto, "-j", "DNAT", "--to-destination", target]

/-- The ruleset rewrites traffic of a protocol to a target. -/
def Ruleset.Rewrites (rs : Ruleset) (proto target : Str) : Prop :=
  ∃ rule ∈ rs.rules, rule.args = rewriteArgs proto target

theorem mem_balance {svcChain : Str} {seps : List Str} {rule : Rule}
    (mem : rule ∈ Expansion.balance svcChain seps) :
    rule.chain = svcChain ∧ ∃ sep ∈ seps, rule.args = [str "-j", sep] ∨
      ∃ probability, rule.args = [str "-m", str "statistic", str "--mode", str "random",
        str "--probability", probability, str "-j", sep] := by
  induction seps with
  | nil => cases mem
  | cons first rest ih =>
    cases rest with
    | nil =>
      rw [Expansion.balance, mem_singleton] at mem
      subst mem
      exact ⟨rfl, first, mem_cons_self, Or.inl rfl⟩
    | cons second rest =>
      rw [Expansion.balance, mem_cons] at mem
      rcases mem with rfl | later
      · exact ⟨rfl, first, mem_cons_self, Or.inr ⟨_, rfl⟩⟩
      · obtain ⟨chain_eq, sep, in_rest, shape⟩ := ih later
        exact ⟨chain_eq, sep, mem_cons_of_mem _ in_rest, shape⟩
      · exact fun empty => by cases empty

theorem Builds.rewrites_iff {rs : Ruleset}
    (builds : Builds services rs) {proto target : Str} :
    rs.Rewrites proto target ↔ ∃ x ∈ expansions services, ∃ backend ∈ x.backends,
      x.proto = proto ∧ dnatTarget backend x.portStr = target := by
  simp only [Ruleset.Rewrites, builds.mem_rules]
  constructor
  · rintro ⟨rule, ⟨x, expanded, mem⟩, args_eq⟩
    rw [Expansion.rules, mem_cons, mem_append, mem_map] at mem
    rcases mem with rfl | balanced | ⟨backend, in_backends, rfl⟩
    · simp [Expansion.rootRule, rewriteArgs] at args_eq
    · obtain ⟨-, sep, -, shape | ⟨probability, shape⟩⟩ := mem_balance balanced
      · simp [shape, rewriteArgs] at args_eq
      · simp [shape, rewriteArgs] at args_eq
    · refine ⟨x, expanded, backend, in_backends, ?_⟩
      simpa [Expansion.dnatRule, rewriteArgs] using args_eq
  · rintro ⟨x, expanded, backend, in_backends, rfl, rfl⟩
    refine ⟨x.dnatRule backend, ⟨x, expanded, mem_cons_of_mem _ ?_⟩, rfl⟩
    exact mem_append_right _ (mem_map_of_mem in_backends)

/-- The services that `SyncClusterSetNAT` hands to the IPv4 or to the IPv6 table. -/
def servicesOf (six : Bool) (services : List ServiceDNAT) : List ServiceDNAT :=
  services.filter fun s => isIPv6 s.vip == six

theorem mem_expansions_servicesOf {six : Bool} {x : Expansion} :
    x ∈ expansions (servicesOf six services) ↔
      x ∈ expansions services ∧ isIPv6 x.service.vip = six := by
  simp only [mem_expansions, servicesOf, mem_filter, beq_iff_eq]
  tauto

end DatawerxMesh.NatPlane
