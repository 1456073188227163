import DatawerxMesh.Go.Runtime
import DatawerxMesh.Meshfw.Interpret

/-!
# The impact of a policy change

`AnalyzePolicyChange` of `pkg/impact/impact.go`: an empty report says that what one chain lets
through, the other lets through as well.
-/

namespace DatawerxMesh.Impact

open Go Addressing Netfilter Meshfw List

/-- Traffic that is let in. -/
structure Exposure where
  source : Str
  dest : Str
  protocol : Str
  port : Str
  deriving DecidableEq

/-- The text, or `any`. -/
def orAny (s : Str) : Str := if s = [] then "any" else s

/-- The text of an exposure. -/
def Exposure.string (e : Exposure) : Str :=
  let pp := if e.port ≠ [] then e.protocol ++ "/" ++ e.port else "all ports"
  orAny e.source ++ " → " ++ orAny e.dest ++ " (" ++ pp ++ ")"

/-- `Policy` with its name, which only the warnings read. -/
structure NamedPolicy extends Policy where
  name : Str
  deriving DecidableEq

/-- What a policy change does. -/
structure PolicyImpact where
  newlyExposed : List Exposure
  newlyDenied : List Exposure
  newlyProtected : List Str
  noLongerProtected : List Str
  warnings : List Str
  skipped : List Str
  deriving DecidableEq

/-- The two maps of `rulesetView`, given by their keys. -/
structure RulesetView where
  accepts : List Exposure
  protected_ : List Str

/-- `parseRuleset`.  What is interpreted is free of repetitions. -/
def parseRuleset (rs : Ruleset) : RulesetView where
  accepts := (interpret rs).accepts.map fun a => ⟨a.source, a.dest, a.protocol, a.port⟩
  protected_ := (interpret rs).protected_

/-- The places where the analysis ranges over a map or sorts by a text. -/
inductive DiffSite where
  | newlyExposed
  | newlyDenied
  | newlyProtected
  | noLongerProtected
  deriving DecidableEq

section Analyze

variable (go : Runtime DiffSite) (quote : Str → Str)

/-- What only the second set has, sorted. -/
def diffExposures (site : DiffSite) (a b : List Exposure) : List Exposure :=
  go.sortSlice site (fun x y => less x.string y.string) ((go.range site b).filter fun e => e ∉ a)

/-- What only the second set has, sorted. -/
def diffStrings (site : DiffSite) (a b : List Str) : List Str :=
  sortStrings ((go.range site b).filter fun s => s ∉ a)

/-- The warnings of one selector. -/
def selectorWarnings (name : Str) (clusterCIDRs : Str → Option (List Str)) (sel : PeerSelector) :
    List Str :=
  ((sel.cidrs.filter fun c => c = str "0.0.0.0/0" ∨ c = str "::/0").map fun c =>
    "policy " ++ quote name ++ " allows from " ++ c ++
      ": any source on the mesh is permitted") ++
  (sel.clusterIDs.filter fun id => (clusterCIDRs id).isNone).map fun id =>
    "policy " ++ quote name ++ " references cluster " ++ quote id ++
      str (" which is not known to the topology: it resolves to no sources (the rule allows " ++
        "nothing)")

/-- The warnings about one policy. -/
def warningsOf (clusterCIDRs : Str → Option (List Str)) (p : NamedPolicy) : List Str :=
  let name := if p.name = [] then str "<unnamed>" else p.name
  (if p.destinations = [] then ["policy " ++ quote name ++
    " has no destinations: it makes ALL mesh ingress default-deny on this cluster"] else []) ++
  p.ingress.flatMap fun ing => ing.from_.flatMap (selectorWarnings quote name clusterCIDRs)

/-- All warnings, each once. -/
def policyWarnings (policies : List NamedPolicy) (clusterCIDRs : Str → Option (List Str)) :
    List Str :=
  dedupe (sortStrings (policies.flatMap (warningsOf quote clusterCIDRs)))

/-- `BuildFirewall` of named policies, for a map that may know a cluster without CIDRs. -/
def compile (policies : List NamedPolicy) (clusterCIDRs : Str → Option (List Str)) : Ruleset :=
  buildFirewall (policies.map NamedPolicy.toPolicy) fun id => (clusterCIDRs id).getD []

/-- The two compiled rulesets, compared. -/
def analyzePolicyChange (current proposed : List NamedPolicy)
    (clusterCIDRs : Str → Option (List Str)) : PolicyImpact :=
  let cur := parseRuleset (compile current clusterCIDRs)
  let prop := parseRuleset (compile proposed clusterCIDRs)
  { newlyExposed := diffExposures go .newlyExposed cur.accepts prop.accepts
    newlyDenied := diffExposures go .newlyDenied prop.accepts cur.accepts
    newlyProtected := diffStrings go .newlyProtected cur.protected_ prop.protected_
    noLongerProtected := diffStrings go .noLongerProtected prop.protected_ cur.protected_
    skipped := (compile proposed clusterCIDRs).skipped
    warnings := policyWarnings quote proposed clusterCIDRs }

variable {site : DiffSite}

theorem mem_diffExposures {a b : List Exposure} {e : Exposure} :
    e ∈ diffExposures go site a b ↔ e ∈ b ∧ e ∉ a := by
  have orders : Sorting.Orders (fun x y : Exposure => less x.string y.string) Exposure.string :=
    less_orders.onField
  rw [diffExposures, (go.sortSlice_arranges site orders _).perm.mem_iff, mem_filter,
    (go.range_perm site b).mem_iff, decide_eq_true_eq]

theorem mem_diffStrings {a b : List Str} {s : Str} :
    s ∈ diffStrings go site a b ↔ s ∈ b ∧ s ∉ a := by
  rw [diffStrings, sortStrings, Sorting.mem_sort, mem_filter, (go.range_perm site b).mem_iff,
    decide_eq_true_eq]

theorem diffExposures_eq_nil_iff {a b : List Exposure} :
    diffExposures go site a b = [] ↔ b ⊆ a := by
  simp only [eq_nil_iff_forall_not_mem, mem_diffExposures, not_and, not_not]
  exact Iff.rfl

theorem diffStrings_eq_nil_iff {a b : List Str} :
    diffStrings go site a b = [] ↔ b ⊆ a := by
  simp only [eq_nil_iff_forall_not_mem, mem_diffStrings, not_and, not_not]
  exact Iff.rfl

end Analyze

/-- All ports name known protocols. -/
def KnownProtocols (policies : List NamedPolicy) : Prop :=
  ∀ p ∈ policies, ∀ ing ∈ p.ingress, ∀ pt ∈ ing.ports, KnownProtocol pt.protocol

section Inclusion

variable {clusterCIDRs : Str → Option (List Str)}

/-- The policies open this combination. -/
def CompilesKey (policies : List NamedPolicy) (clusterCIDRs : Str → Option (List Str))
    (key : AcceptKey) : Prop :=
  Compiles (policies.map NamedPolicy.toPolicy) (fun id => (clusterCIDRs id).getD []) key

theorem KnownProtocols.proto {policies : List NamedPolicy} (known : KnownProtocols policies)
    {key : AcceptKey} (compiles : CompilesKey policies clusterCIDRs key) :
    key.proto = [] ∨ key.proto ∈ protocolNames := by
  obtain ⟨_, listed, added⟩ := compiles
  obtain ⟨p, mem, rfl⟩ := mem_map.mp listed
  obtain ⟨ing, in_ingress, d, -, s, -, -, in_keys⟩ := (p.adds_accept_iff key).mp added
  rw [FwBuilder.acceptKeys] at in_keys
  split at in_keys
  · left
    rw [mem_singleton.mp in_keys]
  · right
    obtain ⟨pt, in_ports, rfl⟩ := mem_map.mp in_keys
    exact normalizeProto_mem (known p mem ing in_ingress pt in_ports)

theorem mem_accepts_compile {policies : List NamedPolicy} (known : KnownProtocols policies)
    {key : AcceptKey} :
    ⟨key.src, key.dst, key.proto, key.port⟩ ∈
        (parseRuleset (compile policies clusterCIDRs)).accepts ↔
      CompilesKey policies clusterCIDRs key := by
  simp only [parseRuleset, compile, mem_map, mem_accepts_buildFirewall]
  constructor
  · rintro ⟨_, ⟨other, compiles, -, rfl⟩, same⟩
    rw [compiles.formed.accessOf_acceptArgs (known.proto compiles)] at same
    have other_eq : other = key := by
      cases other
      cases key
      simpa using same
    exact other_eq ▸ compiles
  · intro compiles
    refine ⟨_, ⟨key, compiles, fun odd => ?_, rfl⟩, ?_⟩
    · rcases known.proto compiles with empty | named
      · exact absurd (empty.symm.trans odd) (by decide)
      · exact absurd (odd ▸ named) (by decide)
    · rw [compiles.formed.accessOf_acceptArgs (known.proto compiles)]

/-- Fewer exposures and more protection let no other packet through. -/
theorem permits_of_subset {narrow wide : List NamedPolicy} (narrow_known : KnownProtocols narrow)
    (wide_known : KnownProtocols wide)
    (accepts : (parseRuleset (compile narrow clusterCIDRs)).accepts ⊆
      (parseRuleset (compile wide clusterCIDRs)).accepts)
    (protects : (parseRuleset (compile wide clusterCIDRs)).protected_ ⊆
      (parseRuleset (compile narrow clusterCIDRs)).protected_)
    {packet : Packet (BitVec 32)}
    (permitted : (compile narrow clusterCIDRs).permits packet = true) :
    (compile wide clusterCIDRs).permits packet = true := by
  by_cases tracked : packet.state = .established ∨ packet.state = .related
  · exact permits_of_tracked tracked
  obtain ⟨not_established, not_related⟩ := not_or.mp tracked
  rw [compile, permits_buildFirewall_iff not_established not_related] at permitted ⊢
  rcases permitted with ⟨key, compiles, matched⟩ | unguarded
  · -- the key of the narrow chain is an exposure, so it is a key of the wide one
    have exposed := accepts ((mem_accepts_compile narrow_known).mpr compiles)
    exact .inl ⟨key, (mem_accepts_compile wide_known).mp exposed, matched⟩
  · right
    rintro ⟨dest, guards, inside⟩
    refine unguarded ⟨dest, ?_, inside⟩
    exact mem_protected_buildFirewall.mp (protects (mem_protected_buildFirewall.mpr guards))

end Inclusion

/-- A change that exposes nothing and gives up no protection lets no packet through that the current
chain stops, and one that denies and protects nothing new stops no packet that the current chain
lets through. -/
theorem policy_impact_sound (go : Runtime DiffSite) (quote : Str → Str)
    (current proposed : List NamedPolicy) (clusterCIDRs : Str → Option (List Str))
    (current_known : KnownProtocols current) (proposed_known : KnownProtocols proposed) :
    let impact := analyzePolicyChange go quote current proposed clusterCIDRs
    (impact.newlyExposed = [] → impact.noLongerProtected = [] →
      ∀ packet, (compile proposed clusterCIDRs).permits packet = true →
        (compile current clusterCIDRs).permits packet = true) ∧
    (impact.newlyDenied = [] → impact.newlyProtected = [] →
      ∀ packet, (compile current clusterCIDRs).permits packet = true →
        (compile proposed clusterCIDRs).permits packet = true) := by
  refine ⟨fun exposed unprotected packet => ?_, fun denied protects packet => ?_⟩
  · exact permits_of_subset proposed_known current_known
      ((diffExposures_eq_nil_iff go).mp exposed) ((diffStrings_eq_nil_iff go).mp unprotected)
  · exact permits_of_subset current_known proposed_known
      ((diffExposures_eq_nil_iff go).mp denied) ((diffStrings_eq_nil_iff go).mp protects)

/-- A policy with given ports. -/
def databasePolicy (ports : List Port) : NamedPolicy where
  name := "database"
  destinations := ["10.0.0.0/24"]
  ingress := [⟨[⟨["east"], []⟩], ports⟩]

/-- The cluster of the database policy. -/
def databaseSources (id : Str) : Option (List Str) :=
  if id = "east" then some ["10.8.0.0/16"] else none

theorem policy_impact_sound_database :
    let wide := [databasePolicy [⟨"TCP", 5432⟩, ⟨[], 6432⟩]]
    let narrow := [databasePolicy [⟨"TCP", 5432⟩]]
    let impact := analyzePolicyChange (.stable DiffSite) id wide narrow databaseSources
    impact.newlyDenied = [⟨"10.8.0.0/16", "10.0.0.0/24", "tcp", "6432"⟩] ∧
    impact.newlyExposed = [] ∧ impact.noLongerProtected = [] ∧
      ∀ packet, (compile narrow databaseSources).permits packet = true →
        (compile wide databaseSources).permits packet = true := by
  intro wide narrow impact
  have wide_known : KnownProtocols wide := by
    simp only [KnownProtocols, KnownProtocol]
    decide
  have narrow_known : KnownProtocols narrow := by
    simp only [KnownProtocols, KnownProtocol]
    decide
  have unexposed : impact.newlyExposed = [] := by decide
  have still_protected : impact.noLongerProtected = [] := by decide
  exact ⟨by decide, unexposed, still_protected, (policy_impact_sound (.stable DiffSite) id wide
    narrow databaseSources wide_known narrow_known).1 unexposed still_protected⟩

end DatawerxMesh.Impact
