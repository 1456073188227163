import DatawerxMesh.NatPlane.Balancing

/-!
# The rules of one service

Which rules, chains and targets belong to a service.  All of it depends on the service alone.
-/

namespace DatawerxMesh.NatPlane

open Go Sorting Netfilter List

variable {rule : Rule} {services : List ServiceDNAT} {rs : Ruleset} {x : Expansion} {chain : Str}

/-- A rule matches a virtual address. -/
def Rule.isFor (vip : Str) (rule : Rule) : Bool := rule.args.take 2 = [str "-d", hostCIDR vip]

/-- The rules that match a virtual address. -/
def Ruleset.rulesFor (rs : Ruleset) (vip : Str) : List Rule := rs.rules.filter (Rule.isFor vip)

theorem hostCIDR_injective {vip vip' : Str} (same : hostCIDR vip = hostCIDR vip') : vip = vip' := by
  have last : ∀ {text text' : Str}, text ++ "/32" ≠ text' ++ "/128" := by
    intro text text' same
    have ends := congrArg List.getLast? same
    rw [List.getLast?_append, List.getLast?_append] at ends
    exact absurd (Option.some.inj ends) (by decide)
  rw [hostCIDR, hostCIDR] at same
  split at same
  · split at same
    · exact append_cancel_right same
    · exact absurd same.symm last
  · split at same
    · exact absurd same last
    · exact append_cancel_right same

theorem isFor_eq_false (other : rule.args.head? ≠ some (str "-d")) (vip : Str) :
    Rule.isFor vip rule = false := by
  refine decide_eq_false fun same => other ?_
  cases args_eq : rule.args with
  | nil => simp [args_eq] at same
  | cons first rest =>
    rw [args_eq, take_succ_cons, List.cons.injEq] at same
    rw [List.head?_cons, same.1]

/-- Only the jump from the root chain matches the address of a port. -/
theorem filter_isFor_rules (x : Expansion) (vip : Str) :
    x.rules.filter (Rule.isFor vip) = if x.service.vip = vip then [x.rootRule] else [] := by
  have balance_none : (Expansion.balance x.svcChain (x.backends.map x.sepChain)).filter
      (Rule.isFor vip) = [] := by
    refine filter_eq_nil_iff.mpr fun rule mem => ?_
    rw [isFor_eq_false ?_ vip]
    · decide
    · obtain ⟨-, sep, -, args_eq | ⟨probability, args_eq⟩⟩ := mem_balance mem
      · rw [args_eq]
        exact fun same => absurd (Option.some.inj same) (by decide)
      · rw [args_eq]
        exact fun same => absurd (Option.some.inj same) (by decide)
  have dnat_none : (x.backends.map x.dnatRule).filter (Rule.isFor vip) = [] := by
    refine filter_eq_nil_iff.mpr fun rule mem => ?_
    obtain ⟨backend, -, rfl⟩ := mem_map.mp mem
    have other : (x.dnatRule backend).args.head? ≠ some (str "-d") := fun same =>
      absurd (Option.some.inj same) (by decide)
    rw [isFor_eq_false other vip]
    decide
  have root : [x.rootRule].filter (Rule.isFor vip) =
      if x.service.vip = vip then [x.rootRule] else [] := by
    by_cases same : x.service.vip = vip
    · simp [Rule.isFor, Expansion.rootRule, same]
    · have differs : hostCIDR x.service.vip ≠ hostCIDR vip := fun eq => same (hostCIDR_injective eq)
      simp [Rule.isFor, Expansion.rootRule, same, differs]
  rw [Expansion.rules, ← singleton_append, filter_append, filter_append, root,
    balance_none, dnat_none, append_nil, append_nil]

theorem rulesFor_rulesetOf (arranged : List ServiceDNAT) (vip : Str) :
    (rulesetOf arranged).rulesFor vip =
      (expansionsOf (arranged.filter fun s => s.vip = vip)).map Expansion.rootRule := by
  have one : ∀ xs : List Expansion, (xs.flatMap Expansion.rules).filter (Rule.isFor vip) =
      (xs.filter fun x => x.service.vip = vip).map Expansion.rootRule := by
    intro xs
    induction xs with
    | nil => rfl
    | cons x xs ih =>
      rw [flatMap_cons, filter_append, filter_isFor_rules, ih]
      by_cases same : x.service.vip = vip
      · rw [if_pos same, filter_cons_of_pos (by simp [same])]
        rfl
      · rw [if_neg same, filter_cons_of_neg (by simp [same])]
        rfl
  rw [Ruleset.rulesFor, rulesetOf, one, expansionsOf, expansionsOf, Accumulation.filter_flatMap_eq,
    filter_comm]
  intro s x mem
  obtain ⟨p, -, rfl⟩ := mem_map.mp mem
  rfl

/-- Where services have their own addresses, their order plays no part. -/
theorem Builds.rulesFor_eq (builds : Builds services rs)
    (own : (services.map ServiceDNAT.vip).Nodup) (vip : Str) :
    rs.rulesFor vip =
      (expansionsOf (services.filter fun s => s.vip = vip)).map Expansion.rootRule := by
  obtain ⟨arranged, arranges, rfl⟩ := builds
  rw [rulesFor_rulesetOf]
  have perm := arranges.perm.filter fun s => s.vip = vip
  have same : ∀ s ∈ services.filter (fun s => s.vip = vip), s.vip = vip :=
    fun s mem => of_decide_eq_true (mem_filter.mp mem).2
  have nodup : ((services.filter fun s => s.vip = vip).map ServiceDNAT.vip).Nodup :=
    own.sublist (filter_sublist.map ServiceDNAT.vip)
  congr 2
  generalize services.filter (fun s => s.vip = vip) = chosen at perm same nodup ⊢
  match chosen with
  | [] => exact perm.eq_nil
  | [s] => exact perm_singleton.mp perm
  | s :: t :: rest =>
    have s_vip := same s mem_cons_self
    have t_vip := same t (mem_cons_of_mem _ mem_cons_self)
    simp [s_vip, t_vip] at nodup

/-- Traffic for an address, a protocol and a port gets from the root chain to the chain of the port,
to that of a backend, and to its rewriting rule. -/
def Ruleset.Leads (rs : Ruleset) (vip proto port target : Str) : Prop :=
  ∃ svc sep, ⟨rootChain, ["-d", hostCIDR vip, "-p", proto, "-m", proto, "--dport",
      port, "-j", svc]⟩ ∈ rs.rules ∧
    (∃ args ∈ rs.chainRules svc, jumpTarget args = some sep) ∧
    rewriteArgs proto target ∈ rs.chainRules sep

theorem exists_balance (svcChain : Str) {sep : Str} {seps : List Str} (mem : sep ∈ seps) :
    ∃ rule ∈ Expansion.balance svcChain seps, jumpTarget rule.args = some sep := by
  induction seps with
  | nil => cases mem
  | cons first rest ih =>
    cases rest with
    | nil =>
      obtain rfl := mem_singleton.mp mem
      exact ⟨_, mem_cons_self, ClusterSet.jumpTarget_last [] sep⟩
    | cons second rest =>
      rw [Expansion.balance]
      · rcases mem_cons.mp mem with rfl | later
        · exact ⟨_, mem_cons_self, ClusterSet.jumpTarget_last [_, _, _, _, _, _] sep⟩
        · obtain ⟨rule, rule_mem, jumps⟩ := ih later
          exact ⟨rule, mem_cons_of_mem _ rule_mem, jumps⟩
      · exact fun empty => by cases empty

theorem jumpTarget_of_mem_balance {svcChain sep : Str} {seps : List Str}
    (mem : rule ∈ Expansion.balance svcChain seps) (jumps : jumpTarget rule.args = some sep) :
    sep ∈ seps := by
  obtain ⟨-, own, own_mem, args_eq | ⟨probability, args_eq⟩⟩ := mem_balance mem
  · rw [args_eq] at jumps
    exact Option.some.inj ((ClusterSet.jumpTarget_last [] own).symm.trans jumps) ▸ own_mem
  · rw [args_eq] at jumps
    exact Option.some.inj
      ((ClusterSet.jumpTarget_last [_, _, _, _, _, _] own).symm.trans jumps) ▸ own_mem

theorem rootRule_of_mem_rules (mem : rule ∈ x.rules) (in_root : rule.chain = rootChain) :
    rule = x.rootRule := by
  rw [Expansion.rules, mem_cons, mem_append, mem_map] at mem
  rcases mem with is_root | balanced | ⟨backend, -, rfl⟩
  · exact is_root
  · exact absurd (in_root.symm.trans (mem_balance balanced).1) (rootChain_ne_hashChain (.inl rfl) _)
  · exact absurd in_root.symm (rootChain_ne_hashChain (.inr rfl) _)

theorem Builds.leads_iff (builds : Builds services rs)
    (own : (services.map ServiceDNAT.names).Nodup) (collisionless : Collisionless services)
    {vip proto port target : Str} :
    rs.Leads vip proto port target ↔ ∃ x ∈ expansions services, x.service.vip = vip ∧
      x.proto = proto ∧ x.portStr = port ∧ ∃ backend ∈ x.backends,
        target = dnatTarget backend port := by
  have mem_rules := @Builds.mem_rules services rs builds
  obtain ⟨arranged, arranges, rfl⟩ := builds
  constructor
  · rintro ⟨svc, sep, jump, ⟨args, picked, jumps⟩, rewrites⟩
    obtain ⟨x, x_mem, in_rules⟩ := mem_rules.mp jump
    have root := congrArg Rule.args (rootRule_of_mem_rules in_rules rfl)
    simp only [Expansion.rootRule, List.cons.injEq, true_and, and_true] at root
    obtain ⟨vip_eq, rfl, -, rfl, rfl⟩ := root
    rw [Ruleset.chainRules, chainArgs_svcChain arranges own collisionless x_mem] at picked
    obtain ⟨rule, rule_mem, rfl⟩ := mem_map.mp picked
    obtain ⟨backend, backend_mem, rfl⟩ := mem_map.mp (jumpTarget_of_mem_balance rule_mem jumps)
    rw [Ruleset.chainRules, chainArgs_sepChain arranges own collisionless x_mem backend_mem,
      mem_singleton] at rewrites
    simp only [rewriteArgs, Expansion.dnatRule, List.cons.injEq, true_and, and_true] at rewrites
    exact ⟨x, x_mem, (hostCIDR_injective vip_eq).symm, rfl, rfl, backend, backend_mem, rewrites⟩
  · rintro ⟨x, x_mem, rfl, rfl, rfl, backend, backend_mem, rfl⟩
    refine ⟨x.svcChain, x.sepChain backend, mem_rules.mpr ⟨x, x_mem, mem_cons_self⟩, ?_, ?_⟩
    · obtain ⟨rule, rule_mem, jumps⟩ := exists_balance x.svcChain (mem_map_of_mem backend_mem)
      refine ⟨rule.args, ?_, jumps⟩
      rw [Ruleset.chainRules, chainArgs_svcChain arranges own collisionless x_mem]
      exact mem_map_of_mem rule_mem
    · rw [Ruleset.chainRules, chainArgs_sepChain arranges own collisionless x_mem backend_mem]
      exact mem_singleton_self _

/-- The chains that are planned for the service of a name. -/
def chainsNamed (services : List ServiceDNAT) (names : Str × Str) : Set Str :=
  {chain | ∃ x ∈ expansions services, x.service.names = names ∧ chain ∈ x.chains}

theorem parts_eq_of_shared_chain (collisionless : Collisionless services) {y : Expansion}
    (x_mem : x ∈ expansions services) (y_mem : y ∈ expansions services) (in_x : chain ∈ x.chains)
    (in_y : chain ∈ y.chains) : x.parts = y.parts := by
  rcases mem_cons.mp in_x with rfl | x_sep
  · rcases mem_cons.mp in_y with same | y_sep
    · exact (svcChain_eq_iff collisionless y_mem x_mem).mp same
    · obtain ⟨backend, backend_mem, same⟩ := mem_map.mp y_sep
      exact absurd same (sepChain_ne_svcChain collisionless x_mem y_mem backend_mem)
  · obtain ⟨backend, backend_mem, rfl⟩ := mem_map.mp x_sep
    rcases mem_cons.mp in_y with same | y_sep
    · exact absurd same (sepChain_ne_svcChain collisionless y_mem x_mem backend_mem)
    · obtain ⟨other, other_mem, same⟩ := mem_map.mp y_sep
      exact ((sepChain_eq_iff collisionless x_mem y_mem backend_mem other_mem).mp same).1.symm

theorem names_eq_of_parts {y : Expansion} (same : x.parts = y.parts) :
    x.service.names = y.service.names := by
  simp only [Expansion.parts, List.cons.injEq] at same
  exact Prod.ext same.1 same.2.1

theorem Builds.mem_chains (builds : Builds services rs) :
    chain ∈ rs.chains ↔ ∃ x ∈ expansions services, chain ∈ x.chains := by
  obtain ⟨arranged, arranges, rfl⟩ := builds
  rw [ClusterSet.mem_chains_rulesetOf]
  simp only [mem_expansionsOf arranges]

theorem chainRules_eq_of_shared {services' : List ServiceDNAT} {rs' : Ruleset}
    (builds : Builds services rs) (builds' : Builds services' rs')
    (own : (services.map ServiceDNAT.names).Nodup) (own' : (services'.map ServiceDNAT.names).Nodup)
    (collisionless : Collisionless services) (collisionless' : Collisionless services')
    (x_mem : x ∈ expansions services) (x_mem' : x ∈ expansions services')
    (in_chains : chain ∈ x.chains) : rs.chainRules chain = rs'.chainRules chain := by
  obtain ⟨arranged, arranges, rfl⟩ := builds
  obtain ⟨arranged', arranges', rfl⟩ := builds'
  rw [Ruleset.chainRules, Ruleset.chainRules]
  rcases mem_cons.mp in_chains with rfl | is_sep
  · rw [chainArgs_svcChain arranges own collisionless x_mem,
      chainArgs_svcChain arranges' own' collisionless' x_mem']
  · obtain ⟨backend, backend_mem, rfl⟩ := mem_map.mp is_sep
    rw [chainArgs_sepChain arranges own collisionless x_mem backend_mem,
      chainArgs_sepChain arranges' own' collisionless' x_mem' backend_mem]

theorem chainRules_eq_nil (builds : Builds services rs) (not_root : chain ≠ rootChain)
    (absent : chain ∉ rs.chains) : rs.chainRules chain = [] := by
  obtain ⟨arranged, arranges, rfl⟩ := builds
  rw [Ruleset.chainRules, chainArgs, filter_eq_nil_iff.mpr, map_nil]
  intro rule mem same
  obtain rfl := of_decide_eq_true same
  rcases (ClusterSet.wellPlanned_rulesetOf arranged).chain rule mem with root | planned
  · exact not_root root
  · exact absent planned

end DatawerxMesh.NatPlane
