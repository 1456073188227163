import DatawerxMesh.NatPlane.ClusterSet

/-!
# What the planned chains hold

Where the hash in chain names tells apart what it is applied to, every chain holds the rules of one
port or one backend.
-/

namespace DatawerxMesh.NatPlane

open Go Sorting List

/-- What the chains of a port are named by. -/
def Expansion.parts (x : Expansion) : List Str :=
  [x.service.namespace_, x.service.name, x.proto, x.portStr]

/-- What the names of the planned chains are hashed from. -/
def hashed (services : List ServiceDNAT) : Set (Str × List Str) :=
  {tuple | ∃ x ∈ expansions services, tuple = (svcChainPrefix, x.parts) ∨
    ∃ backend ∈ x.backends, tuple = (sepChainPrefix, x.parts ++ [backend])}

/-- No two planned chains share a name by a collision of the hash. -/
def Collisionless (services : List ServiceDNAT) : Prop :=
  Set.InjOn (fun tuple => hashChain tuple.1 tuple.2) (hashed services)

/-- The same, as a list. -/
def hashedTuples (services : List ServiceDNAT) : List (Str × List Str) :=
  (expansions services).flatMap fun x => (svcChainPrefix, x.parts) ::
    x.backends.map fun backend => (sepChainPrefix, x.parts ++ [backend])

theorem mem_hashedTuples {services : List ServiceDNAT} {tuple : Str × List Str} :
    tuple ∈ hashedTuples services ↔ tuple ∈ hashed services := by
  simp only [hashedTuples, hashed, mem_flatMap, mem_cons, mem_map, Set.mem_ofPred_eq, eq_comm]

instance (services : List ServiceDNAT) : Decidable (Collisionless services) :=
  decidable_of_iff (∀ a ∈ hashedTuples services, ∀ b ∈ hashedTuples services,
    hashChain a.1 a.2 = hashChain b.1 b.2 → a = b) <| by
      simp only [mem_hashedTuples]
      exact ⟨fun all a a_mem b b_mem => all a a_mem b b_mem,
        fun injective a a_mem b b_mem => injective a_mem b_mem⟩

theorem svcChain_eq (x : Expansion) : x.svcChain = hashChain svcChainPrefix x.parts := rfl

theorem sepChain_eq (x : Expansion) (backend : Str) :
    x.sepChain backend = hashChain sepChainPrefix (x.parts ++ [backend]) :=
  rfl

theorem rootChain_ne_hashChain {kind : Str}
    (is_kind : kind = svcChainPrefix ∨ kind = sepChainPrefix) (parts : List Str) :
    rootChain ≠ hashChain kind parts := by
  intro same
  have managed := ClusterSet.isManaged_hashChain is_kind parts
  rw [← same] at managed
  cases managed

theorem hashChain_ne_dnat {kind : Str} (is_kind : kind = svcChainPrefix ∨ kind = sepChainPrefix)
    (parts : List Str) : hashChain kind parts ≠ "DNAT" := by
  intro same
  have managed := ClusterSet.isManaged_hashChain is_kind parts
  rw [same] at managed
  cases managed

section Collisionless

variable {services : List ServiceDNAT} (collisionless : Collisionless services)
  {x y : Expansion} (x_mem : x ∈ expansions services) (y_mem : y ∈ expansions services)

include collisionless x_mem y_mem

theorem svcChain_eq_iff : y.svcChain = x.svcChain ↔ y.parts = x.parts := by
  refine ⟨fun same => ?_, fun same => by rw [svcChain_eq, svcChain_eq, same]⟩
  have tuples := collisionless ⟨y, y_mem, .inl rfl⟩ ⟨x, x_mem, .inl rfl⟩ same
  exact (Prod.mk.inj tuples).2

theorem sepChain_eq_iff {backend other : Str} (x_backend : backend ∈ x.backends)
    (y_backend : other ∈ y.backends) :
    y.sepChain other = x.sepChain backend ↔ y.parts = x.parts ∧ other = backend := by
  constructor
  · intro same
    have tuples := collisionless ⟨y, y_mem, .inr ⟨other, y_backend, rfl⟩⟩
      ⟨x, x_mem, .inr ⟨backend, x_backend, rfl⟩⟩ same
    have lists := (Prod.mk.inj tuples).2
    exact ⟨(append_inj' lists rfl).1, singleton_inj.mp (append_inj' lists rfl).2⟩
  · rintro ⟨same, rfl⟩
    rw [sepChain_eq, sepChain_eq, same]

theorem sepChain_ne_svcChain {other : Str} (y_backend : other ∈ y.backends) :
    y.sepChain other ≠ x.svcChain := by
  intro same
  have tuples := collisionless ⟨y, y_mem, .inr ⟨other, y_backend, rfl⟩⟩ ⟨x, x_mem, .inl rfl⟩ same
  exact absurd (Prod.mk.inj tuples).1 (by decide)

end Collisionless

theorem sortedPorts_nodup (ports : List PortDNAT) : (sortedPorts ports).Nodup :=
  (sort_perm _ _).nodup_iff.mpr (Accumulation.nodup_firstOf _ _)

/-- The namespace and the name. -/
def ServiceDNAT.names (s : ServiceDNAT) : Str × Str := (s.namespace_, s.name)

theorem parts_eq_iff {s t : ServiceDNAT} {p q : PortDNAT} {backends backends' : List Str}
    (p_mem : p ∈ sortedPorts s.ports) (q_mem : q ∈ sortedPorts t.ports) :
    (Expansion.mk s p backends).parts = (Expansion.mk t q backends').parts ↔
      s.names = t.names ∧ p = q := by
  have normal : ∀ {ports : List PortDNAT} {p : PortDNAT}, p ∈ sortedPorts ports →
      normalizeProto p.protocol = p.protocol := by
    intro ports p mem
    obtain ⟨q, -, rfl⟩ := mem_sortedPorts.mp mem
    exact normalizeProto_normalizeProto q.protocol
  simp only [Expansion.parts, Expansion.proto, normal p_mem, normal q_mem, List.cons.injEq,
    and_true, ServiceDNAT.names, Prod.mk.injEq, and_assoc]
  refine and_congr_right fun _ => and_congr_right fun _ => ?_
  rw [PortDNAT.mk.injEq]
  exact and_congr_right fun _ => ⟨itoaInt_injective, congrArg itoaInt⟩

theorem parts_nodup {arranged : List ServiceDNAT} (own : (arranged.map ServiceDNAT.names).Nodup) :
    ((expansionsOf arranged).map Expansion.parts).Nodup := by
  rw [expansionsOf, map_flatMap, nodup_flatMap]
  constructor
  · intro s _
    rw [map_map]
    refine (sortedPorts_nodup s.ports).map_on fun p p_mem q q_mem same => ?_
    exact ((parts_eq_iff p_mem q_mem).mp same).2
  · have apart : arranged.Pairwise fun s t => s.names ≠ t.names := pairwise_map.mp own
    refine (apart.sublist filter_sublist).imp fun {s t} differ => ?_
    intro parts in_first in_second
    simp only [map_map, mem_map] at in_first in_second
    obtain ⟨p, p_mem, rfl⟩ := in_first
    obtain ⟨q, q_mem, same⟩ := in_second
    exact differ ((parts_eq_iff q_mem p_mem).mp same).1.symm

theorem chainArgs_rules (x : Expansion) (chain : Str) :
    chainArgs chain x.rules = (if rootChain = chain then [x.rootRule.args] else []) ++
      ((if x.svcChain = chain then
          (Expansion.balance x.svcChain (x.backends.map x.sepChain)).map Rule.args else []) ++
        (x.backends.filter fun backend => x.sepChain backend = chain).map fun backend =>
          (x.dnatRule backend).args) := by
  have balanced : ∀ rule ∈ Expansion.balance x.svcChain (x.backends.map x.sepChain),
      rule.chain = x.svcChain := fun rule mem => (mem_balance mem).1
  have balance_eq : (Expansion.balance x.svcChain (x.backends.map x.sepChain)).filter
      (fun rule => rule.chain = chain) =
        if x.svcChain = chain then Expansion.balance x.svcChain (x.backends.map x.sepChain)
        else [] := by
    split
    case isTrue same =>
      exact filter_eq_self.mpr fun rule mem => by simp [balanced rule mem, same]
    case isFalse differs =>
      exact filter_eq_nil_iff.mpr fun rule mem => by simp [balanced rule mem, differs]
  have rewriting :
      ((x.backends.map x.dnatRule).filter fun rule => rule.chain = chain).map Rule.args =
      (x.backends.filter fun backend => x.sepChain backend = chain).map fun backend =>
        (x.dnatRule backend).args := by
    rw [filter_map, map_map]
    rfl
  have jump : ([x.rootRule].filter fun rule => rule.chain = chain).map Rule.args =
      if rootChain = chain then [x.rootRule.args] else [] := by
    by_cases is_root : rootChain = chain <;> simp [Expansion.rootRule, is_root]
  rw [chainArgs, Expansion.rules, ← singleton_append, filter_append, filter_append,
    balance_eq, map_append, map_append, rewriting, jump, apply_ite (List.map Rule.args),
    map_nil]

theorem chainArgs_flatMap (chain : Str) (xs : List Expansion) :
    chainArgs chain (xs.flatMap Expansion.rules) = xs.flatMap fun x => chainArgs chain x.rules := by
  simp only [chainArgs, filter_flatMap, map_flatMap]

theorem chainArgs_root (xs : List Expansion) :
    chainArgs rootChain (xs.flatMap Expansion.rules) = xs.map fun x => x.rootRule.args := by
  have one : ∀ x : Expansion, chainArgs rootChain x.rules = [x.rootRule.args] := by
    intro x
    have not_svc : x.svcChain ≠ rootChain := (rootChain_ne_hashChain (.inl rfl) _).symm
    have not_sep : ∀ backend, x.sepChain backend ≠ rootChain := fun backend =>
      (rootChain_ne_hashChain (.inr rfl) _).symm
    simp [chainArgs_rules, not_svc, not_sep]
  rw [chainArgs_flatMap]
  simp only [one]
  exact map_eq_flatMap.symm

theorem uniqueSortedStrings_nodup (strings : List Str) : (uniqueSortedStrings strings).Nodup :=
  (sort_perm _ _).nodup_iff.mpr (nodup_dedup _)

theorem backends_nodup {services : List ServiceDNAT} {x : Expansion}
    (x_mem : x ∈ expansions services) : x.backends.Nodup := by
  obtain ⟨-, -, -, -, backends_eq⟩ := mem_expansions.mp x_mem
  rw [backends_eq]
  exact uniqueSortedStrings_nodup _

section Contents

variable {services arranged : List ServiceDNAT} (arranges : Arranges lessService services arranged)
  (own : (services.map ServiceDNAT.names).Nodup) (collisionless : Collisionless services)
  {x : Expansion} (x_mem : x ∈ expansions services)

include arranges own collisionless x_mem

theorem chainArgs_svcChain :
    chainArgs x.svcChain (rulesetOf arranged).rules =
      (Expansion.balance x.svcChain (x.backends.map x.sepChain)).map Rule.args := by
  have arranged_own : (arranged.map ServiceDNAT.names).Nodup :=
    (arranges.perm.map _).nodup_iff.mpr own
  have mem := (mem_expansionsOf arranges).mpr x_mem
  have not_root : rootChain ≠ x.svcChain := rootChain_ne_hashChain (.inl rfl) _
  have not_sep : ∀ y ∈ expansions services, y.backends.filter
      (fun backend => y.sepChain backend = x.svcChain) = [] := by
    intro y y_mem
    refine filter_eq_nil_iff.mpr fun backend y_backend => ?_
    simpa using sepChain_ne_svcChain collisionless x_mem y_mem y_backend
  rw [rulesetOf, chainArgs_flatMap,
    Accumulation.flatMap_eq_of_mem (parts_nodup arranged_own) mem]
  · simp [chainArgs_rules, not_root, not_sep x x_mem]
  · intro y y_arranged differs
    have y_mem := (mem_expansionsOf arranges).mp y_arranged
    have not_svc := (svcChain_eq_iff collisionless x_mem y_mem).not.mpr differs
    simp [chainArgs_rules, not_root, not_svc, not_sep y y_mem]

theorem chainArgs_sepChain {backend : Str} (x_backend : backend ∈ x.backends) :
    chainArgs (x.sepChain backend) (rulesetOf arranged).rules = [(x.dnatRule backend).args] := by
  have arranged_own : (arranged.map ServiceDNAT.names).Nodup :=
    (arranges.perm.map _).nodup_iff.mpr own
  have mem := (mem_expansionsOf arranges).mpr x_mem
  have not_root : rootChain ≠ x.sepChain backend := rootChain_ne_hashChain (.inr rfl) _
  have not_svc : ∀ y ∈ expansions services, y.svcChain ≠ x.sepChain backend := fun y y_mem =>
    (sepChain_ne_svcChain collisionless y_mem x_mem x_backend).symm
  rw [rulesetOf, chainArgs_flatMap,
    Accumulation.flatMap_eq_of_mem (parts_nodup arranged_own) mem]
  · have alone : x.backends.filter (fun other => x.sepChain other = x.sepChain backend) =
        [backend] := by
      refine perm_singleton.mp ((perm_ext_iff_of_nodup
        ((backends_nodup x_mem).filter _) (nodup_singleton _)).mpr fun other => ?_)
      rw [mem_filter, mem_singleton, decide_eq_true_eq]
      constructor
      · rintro ⟨other_mem, same⟩
        exact ((sepChain_eq_iff collisionless x_mem x_mem x_backend other_mem).mp same).2
      · rintro rfl
        exact ⟨x_backend, rfl⟩
    simp [chainArgs_rules, not_root, not_svc x x_mem, alone]
  · intro y y_arranged differs
    have y_mem := (mem_expansionsOf arranges).mp y_arranged
    have none : y.backends.filter (fun other => y.sepChain other = x.sepChain backend) = [] := by
      refine filter_eq_nil_iff.mpr fun other y_backend same => differs ?_
      exact ((sepChain_eq_iff collisionless x_mem y_mem x_backend y_backend).mp
        (of_decide_eq_true same)).1
    simp [chainArgs_rules, not_root, not_svc y y_mem, none]

end Contents

end DatawerxMesh.NatPlane
