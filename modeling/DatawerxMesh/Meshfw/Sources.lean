import DatawerxMesh.Meshfw.Interpret

/-!
# Firewalls of two cluster maps

The same policies compiled with two maps from cluster IDs to CIDRs.
-/

namespace DatawerxMesh.Meshfw

open Go Addressing Netfilter List

theorem AcceptKey.Formed.operands {key : AcceptKey} (formed : key.Formed)
    {found : List (Flag × Str)} (read : options (acceptArgs key) = some found) :
    (operandOf .source found).getD [] = key.src ∧
      (operandOf .destination found).getD [] = key.dst ∧
      (operandOf .protocol found).getD [] = key.proto ∧
      (operandOf .dport found).getD [] = key.port := by
  have src_ne := ne_of_keeps formed.src (by decide : FwBuilder.keeps [] = false)
  rw [options_acceptArgs, Option.some.injEq] at read
  subst read
  rcases formed.port with ⟨any_proto, any_port⟩ | ⟨some_proto, number, port_eq⟩
  · by_cases any_dst : key.dst = [] <;>
      simp [addressOption, serviceOptions, operandOf, src_ne, any_dst, any_proto, any_port]
  · by_cases any_dst : key.dst = [] <;>
      simp [addressOption, serviceOptions, operandOf, src_ne, any_dst, some_proto, port_eq,
        itoaInt_ne_nil]

theorem acceptArgs_injective {left right : AcceptKey} (left_formed : left.Formed)
    (right_formed : right.Formed) (same : acceptArgs left = acceptArgs right) : left = right := by
  have read := options_acceptArgs right
  obtain ⟨src, dst, proto, port⟩ := right_formed.operands read
  obtain ⟨src', dst', proto', port'⟩ := left_formed.operands (same ▸ read)
  cases left
  cases right
  simp_all

theorem dropArgs_injective {left right : Str} (same : dropArgs left = dropArgs right) :
    left = right := by
  rw [← argValue_dropArgs left, same, argValue_dropArgs]

section Compiled

variable {policies policies' : List Policy} {clusterCIDRs clusterCIDRs' : Str → List Str}

/-- Some policy adds the item. -/
def Collects (policies : List Policy) (clusterCIDRs : Str → List Str) (item : Item) : Prop :=
  ∃ p ∈ policies, p.Adds clusterCIDRs item

theorem acceptArgs_ne_conntrackArgs {key : AcceptKey} (formed : key.Formed) :
    acceptArgs key ≠ conntrackArgs := by
  have src_ne := ne_of_keeps formed.src (by decide : FwBuilder.keeps [] = false)
  intro same
  have source := formed.argValue_source
  rw [same] at source
  exact src_ne (source.symm.trans (by decide))

theorem dropArgs_ne_conntrackArgs (dest : Str) : dropArgs dest ≠ conntrackArgs := by
  intro same
  have last := getLast_dropArgs dest
  rw [same] at last
  exact absurd last (by decide)

theorem acceptArgs_ne_dropArgs (key : AcceptKey) (dest : Str) : acceptArgs key ≠ dropArgs dest := by
  intro same
  have last := getLast_acceptArgs key
  rw [same, getLast_dropArgs] at last
  exact absurd last (by decide)

theorem compiles_iff_mem_rules {key : AcceptKey} (formed : key.Formed) :
    Compiles policies clusterCIDRs key ↔
      ⟨fwChain, acceptArgs key⟩ ∈ (buildFirewall policies clusterCIDRs).rules := by
  rw [mem_rules_buildFirewall]
  constructor
  · exact fun compiles => .inr (.inl ⟨key, compiles, rfl⟩)
  · rintro (same | ⟨other, compiles, same⟩ | ⟨dest, -, same⟩)
    · exact absurd (congrArg Rule.args same) (acceptArgs_ne_conntrackArgs formed)
    · rwa [acceptArgs_injective formed compiles.formed (congrArg Rule.args same)]
    · exact absurd (congrArg Rule.args same) (acceptArgs_ne_dropArgs key dest)

theorem guards_iff_mem_rules (dest : Str) :
    Guards policies dest ↔
      ⟨fwChain, dropArgs dest⟩ ∈ (buildFirewall policies clusterCIDRs).rules := by
  rw [mem_rules_buildFirewall]
  constructor
  · exact fun guards => .inr (.inr ⟨dest, guards, rfl⟩)
  · rintro (same | ⟨key, -, same⟩ | ⟨other, guards, same⟩)
    · exact absurd (congrArg Rule.args same) (dropArgs_ne_conntrackArgs dest)
    · exact absurd (congrArg Rule.args same) (acceptArgs_ne_dropArgs key dest).symm
    · rwa [dropArgs_injective (congrArg Rule.args same)]

theorem mem_skipped_buildFirewall (text : Str) :
    text ∈ (buildFirewall policies clusterCIDRs).skipped ↔
      Collects policies clusterCIDRs (.skip text) := by
  rw [Collects, ← FwBuilder.has_addPolicies, buildFirewall, FwBuilder.ruleset, mem_dedupe,
    sortStrings, Sorting.mem_sort]
  rfl

theorem buildFirewall_eq_iff :
    buildFirewall policies clusterCIDRs = buildFirewall policies' clusterCIDRs' ↔
      ∀ item, Collects policies clusterCIDRs item ↔ Collects policies' clusterCIDRs' item := by
  constructor
  · intro same item
    cases item with
    | accept key =>
      constructor
      all_goals
        intro compiles
        have formed := Compiles.formed compiles
        exact (compiles_iff_mem_rules formed).mpr
          (same ▸ (compiles_iff_mem_rules formed).mp compiles)
    | protect dest =>
      simp only [Collects, Policy.adds_protect_iff]
      have in_rules := @guards_iff_mem_rules policies clusterCIDRs dest
      rw [same] at in_rules
      exact in_rules.trans (guards_iff_mem_rules dest).symm
    | skip text => rw [← mem_skipped_buildFirewall, same, mem_skipped_buildFirewall]
  · intro same
    refine ruleset_eq_of_has fun item => ?_
    rw [FwBuilder.has_addPolicies, FwBuilder.has_addPolicies]
    exact same item

/-- What one source of a rule adds. -/
def Policy.Yields (p : Policy) (ing : IngressRule) (source : Str) (item : Item) : Prop :=
  p.dests ≠ [] ∧
    (FwBuilder.reports source = true ∧ item = .skip ("from" ++ ":" ++ source) ∨
      FwBuilder.keeps source = true ∧ ∃ d ∈ p.dests,
        ∃ key ∈ FwBuilder.acceptKeys source d ing.ports, item = .accept key)

theorem Policy.adds_iff_yields (p : Policy) (item : Item) :
    p.Adds clusterCIDRs item ↔ Reported p.destinations "dest" item ∨
      (∃ d ∈ p.dests, item = .protect d) ∨
      ∃ ing ∈ p.ingress, ∃ source ∈ resolveSources ing.from_ clusterCIDRs,
        p.Yields ing source item := by
  refine or_congr_right (or_congr_right ?_)
  constructor
  · rintro ⟨some_dest, ing, in_ingress, ⟨source, listed, reported⟩ |
      ⟨d, in_dests, source, listed, kept, added⟩⟩
    · exact ⟨ing, in_ingress, source, listed, some_dest, .inl reported⟩
    · exact ⟨ing, in_ingress, source, listed, some_dest, .inr ⟨kept, d, in_dests, added⟩⟩
  · rintro ⟨ing, in_ingress, source, listed, some_dest, reported | ⟨kept, d, in_dests, added⟩⟩
    · exact ⟨some_dest, ing, in_ingress, .inl ⟨source, listed, reported⟩⟩
    · exact ⟨some_dest, ing, in_ingress, .inr ⟨d, in_dests, source, listed, kept, added⟩⟩

/-- Whatever a CIDR of the first map alone adds is also collected with the second map. -/
def Compensated (policies : List Policy) (first second : Str → List Str) : Prop :=
  ∀ p ∈ policies, ∀ ing ∈ p.ingress, ∀ selector ∈ ing.from_, ∀ id ∈ selector.clusterIDs,
    ∀ source ∈ first id, source ∉ second id → ∀ item, p.Yields ing source item →
      Collects policies second item

theorem collects_of_compensated {first second : Str → List Str}
    (compensated : Compensated policies first second) {item : Item}
    (collects : Collects policies first item) : Collects policies second item := by
  obtain ⟨p, mem, added⟩ := collects
  rcases p.adds_iff_yields item |>.mp added with
    reported | protected_ | ⟨ing, in_ingress, source, resolved, yields⟩
  · exact ⟨p, mem, p.adds_iff_yields item |>.mpr (.inl reported)⟩
  · exact ⟨p, mem, p.adds_iff_yields item |>.mpr (.inr (.inl protected_))⟩
  · have kept : source ∈ resolveSources ing.from_ second → Collects policies second item :=
      fun still => ⟨p, mem,
        p.adds_iff_yields item |>.mpr (.inr (.inr ⟨ing, in_ingress, source, still, yields⟩))⟩
    simp only [resolveSources, mem_flatMap, mem_append] at resolved kept
    obtain ⟨selector, in_from, ⟨id, named, listed⟩ | listed⟩ := resolved
    · by_cases still : source ∈ second id
      · exact kept ⟨selector, in_from, .inl ⟨id, named, still⟩⟩
      · exact compensated p mem ing in_ingress selector in_from id named source listed still item
          yields
    · exact kept ⟨selector, in_from, .inr listed⟩

/-- The rulesets are the same when the CIDRs of each map are compensated in the other. -/
theorem buildFirewall_eq_iff_compensated (policies : List Policy) (first second : Str → List Str) :
    buildFirewall policies first = buildFirewall policies second ↔
      Compensated policies first second ∧ Compensated policies second first := by
  have collected : ∀ {one : Str → List Str} {p : Policy} {ing : IngressRule}
      {selector : PeerSelector} {id source : Str} {item : Item}, p ∈ policies → ing ∈ p.ingress →
      selector ∈ ing.from_ → id ∈ selector.clusterIDs → source ∈ one id → p.Yields ing source item →
      Collects policies one item := by
    intro one p ing selector id source item mem in_ingress in_from named listed yields
    refine ⟨p, mem, (p.adds_iff_yields item).mpr (.inr (.inr ⟨ing, in_ingress, source, ?_,
      yields⟩))⟩
    rw [resolveSources, mem_flatMap]
    exact ⟨selector, in_from, mem_append_left _ (mem_flatMap.mpr ⟨id, named, listed⟩)⟩
  rw [buildFirewall_eq_iff]
  constructor
  · intro same
    constructor
    · intro p mem ing in_ingress selector in_from id named source listed _ item yields
      exact (same item).mp (collected mem in_ingress in_from named listed yields)
    · intro p mem ing in_ingress selector in_from id named source listed _ item yields
      exact (same item).mpr (collected mem in_ingress in_from named listed yields)
  · rintro ⟨forward, backward⟩ item
    exact ⟨collects_of_compensated forward, collects_of_compensated backward⟩

end Compiled

end DatawerxMesh.Meshfw
