import DatawerxMesh.NatPlane.ChainContents
import DatawerxMesh.NatPlane.Traversal
import Mathlib.Data.Finset.Card

/-!
# The planner balances

A packet to the address and port of a service is rewritten to one of its backends, each with the
same probability, and other packets are left alone.
-/

namespace DatawerxMesh.NatPlane

open Go Addressing Netfilter Chance Sorting List

variable {packet : Packet IP} {services : List ServiceDNAT}

/-- The address that a text denotes, in the family in which it is written. -/
def vipAddress (text : Str) : Option IP :=
  match parseAddr text with
  | some (.v4 address) => some (.four address)
  | some (.v6 address []) => some (.sixteen address)
  | _ => none

/-- The backends of a service, without repetitions and empty texts. -/
def ServiceDNAT.distinctBackends (s : ServiceDNAT) : Finset Str := s.backends.toFinset.erase []

/-- A packet is one for a service on one of its ports. -/
def ServiceDNAT.Serves (s : ServiceDNAT) (packet : Packet IP) : Prop :=
  vipAddress s.vip = some packet.destination ∧ ∃ p ∈ s.ports,
    normalizeProto p.protocol = packet.protocol.name ∧ p.port = packet.destinationPort

theorem rangeMatches_hostCIDR {vip : Str} {own : IP} (denotes : vipAddress vip = some own)
    (address : IP) : rangeMatches (hostCIDR vip) address = true ↔ own = address := by
  rw [vipAddress] at denotes
  split at denotes
  case h_1 low parsed =>
    obtain rfl := Option.some.inj denotes
    have read := parseNet_hostCIDR_of_v4 parsed
    cases address with
    | four other =>
      rw [IP.four.injEq, eq_comm (a := low), ← Block.contains_around_full low other]
      simp only [rangeMatches, read]
    | sixteen other => simp [rangeMatches, read]
  case h_2 high parsed =>
    obtain rfl := Option.some.inj denotes
    have read := parseNet_hostCIDR_of_v6 parsed
    cases address with
    | four other => simp [rangeMatches, read]
    | sixteen other =>
      rw [IP.sixteen.injEq, eq_comm (a := high), ← Block.contains_around_full high other]
      simp only [rangeMatches, read]
  case h_3 => cases denotes

/-- The lottery decides the packet, so no later rule is reached. -/
def Decides (lottery : Lottery Verdict) : Prop :=
  ∀ next : Lottery Verdict, lottery.bind (Verdict.orElse next) = lottery

/-- The pick among the targets of some backends. -/
def rewriting (target : Str → Str) (first : Str) (rest : List Str) : Lottery Verdict :=
  .pick (.rewritten (target first)) (rest.map fun backend => .rewritten (target backend))

theorem decides_rewriting (target : Str → Str) (first : Str) (rest : List Str) :
    Decides (rewriting target first rest) := by
  intro next
  refine Lottery.bind_pick fun outcome mem => ?_
  rw [mem_cons, mem_map] at mem
  obtain rfl | ⟨backend, -, rfl⟩ := mem
  all_goals rfl

theorem length_balance (svcChain : Str) (seps : List Str) :
    (Expansion.balance svcChain seps).length = seps.length := by
  induction seps with
  | nil => rfl
  | cons first rest ih =>
    cases rest with
    | nil => rfl
    | cons second rest => simpa [Expansion.balance] using ih

theorem rulesLottery_balance {jump : Str → Lottery Verdict} {sep target : Str → Str}
    (svcChain : Str) {first : Str} {rest : List Str}
    (is_chain : ∀ backend, sep backend ≠ str "DNAT") (jumps : ∀ backend ∈ first :: rest,
      jump (sep backend) = .sure (.rewritten (target backend))) :
    rulesLottery jump packet
      ((Expansion.balance svcChain ((first :: rest).map sep)).map Rule.args) =
        rewriting target first rest := by
  induction rest generalizing first with
  | nil =>
    have only := jumps first mem_cons_self
    simp [Expansion.balance, rulesLottery, ruleLottery_jump (is_chain first), only, Lottery.bind,
      rewriting, Lottery.pick]
  | cons second rest ih =>
    have now := jumps first mem_cons_self
    have later := ih fun backend mem => jumps backend (mem_cons_of_mem _ mem)
    have left_eq :
        ((Expansion.balance svcChain ((second :: rest).map sep)).map Rule.args).length + 1 =
          rest.length + 2 := by
      rw [length_map, length_balance, length_map, length_cons]
    have unfolded :
        (Expansion.balance svcChain ((first :: second :: rest).map sep)).map Rule.args =
        [str "-m", str "statistic", str "--mode", str "random", str "--probability",
          formatReciprocal (rest.length + 2), str "-j", sep first] ::
            (Expansion.balance svcChain ((second :: rest).map sep)).map Rule.args := by
      simp [Expansion.balance]
    rw [unfolded, rulesLottery, left_eq, ruleLottery_statistic (is_chain first), now,
      Lottery.bind, Lottery.bind, Lottery.bind, later]
    simp [rewriting, Lottery.pick]

theorem rulesLottery_root {jump : Str → Lottery Verdict} {xs : List Expansion}
    {lottery : Lottery Verdict} (decides : Decides lottery)
    (leads : ∀ x ∈ xs, x.Matches packet → jump x.svcChain = lottery) :
    rulesLottery jump packet (xs.map fun x => x.rootRule.args) =
      if ∃ x ∈ xs, x.Matches packet then lottery else .sure .passes := by
  induction xs with
  | nil => simp [rulesLottery]
  | cons x xs ih =>
    have later := ih fun y mem => leads y (mem_cons_of_mem _ mem)
    have is_chain : x.svcChain ≠ "DNAT" := hashChain_ne_dnat (.inl rfl) _
    rw [map_cons, rulesLottery, ruleLottery_rootRule is_chain]
    by_cases here : x.Matches packet
    · rw [if_pos here, leads x mem_cons_self here, decides, if_pos ⟨x, mem_cons_self, here⟩]
    · rw [if_neg here, Lottery.bind, later]
      simp [here]

section Packets

variable {services arranged : List ServiceDNAT} (arranges : Arranges lessService services arranged)
  (own : (services.map ServiceDNAT.names).Nodup) (collisionless : Collisionless services)
  {x : Expansion} {packet : Packet IP} {first : Str} {rest : List Str}

/-- The rules of a chain. -/
def Ruleset.chainRules (rs : Ruleset) (chain : Str) : List (List Str) := chainArgs chain rs.rules

theorem chainRules_root (arranged : List ServiceDNAT) :
    (rulesetOf arranged).chainRules rootChain =
      (expansionsOf arranged).map fun x => x.rootRule.args :=
  chainArgs_root _

include arranges own collisionless in
theorem chainLottery_svcChain (x_mem : x ∈ expansions services) (matched : x.Matches packet)
    (backends_eq : x.backends = first :: rest) (depth : Nat) :
    chainLottery (rulesetOf arranged).chainRules packet (depth + 2) x.svcChain =
      rewriting (dnatTarget · x.portStr) first rest := by
  have jumps : ∀ backend ∈ first :: rest,
      chainLottery (rulesetOf arranged).chainRules packet (depth + 1) (x.sepChain backend) =
        .sure (.rewritten (dnatTarget backend x.portStr)) := by
    intro backend mem
    rw [chainLottery, Ruleset.chainRules,
      chainArgs_sepChain arranges own collisionless x_mem (backends_eq ▸ mem), rulesLottery,
      ruleLottery_dnatRule backend matched.2.1]
    rfl
  rw [chainLottery, Ruleset.chainRules, chainArgs_svcChain arranges own collisionless x_mem,
    backends_eq]
  exact rulesLottery_balance x.svcChain (fun backend => hashChain_ne_dnat (.inr rfl) _) jumps

variable (vips : (services.map fun s => vipAddress s.vip).Nodup)
  (literal : ∀ s ∈ services, (vipAddress s.vip).isSome)

include literal in
theorem matches_iff (x_mem : x ∈ expansions services) (packet : Packet IP) :
    x.Matches packet ↔ vipAddress x.service.vip = some packet.destination ∧
      x.port.protocol = packet.protocol.name ∧ x.port.port = packet.destinationPort := by
  obtain ⟨in_services, -, -, in_ports, -⟩ := mem_expansions.mp x_mem
  obtain ⟨own, denotes⟩ := Option.isSome_iff_exists.mp (literal x.service in_services)
  have proto_eq : x.proto = x.port.protocol := by
    obtain ⟨p, -, port_eq⟩ := mem_sortedPorts.mp in_ports
    rw [Expansion.proto, ← port_eq]
    exact normalizeProto_normalizeProto p.protocol
  rw [Expansion.Matches, rangeMatches_hostCIDR denotes, denotes, Option.some.injEq, proto_eq,
    Expansion.portStr, itoaInt_eq_itoa_iff]

include vips literal in
theorem eq_of_matches {y : Expansion} (x_mem : x ∈ expansions services)
    (y_mem : y ∈ expansions services) (x_matches : x.Matches packet)
    (y_matches : y.Matches packet) : x = y := by
  obtain ⟨x_vip, x_proto, x_port⟩ := (matches_iff literal x_mem packet).mp x_matches
  obtain ⟨y_vip, y_proto, y_port⟩ := (matches_iff literal y_mem packet).mp y_matches
  obtain ⟨x_service, -, -, -, x_backends⟩ := mem_expansions.mp x_mem
  obtain ⟨y_service, -, -, -, y_backends⟩ := mem_expansions.mp y_mem
  have service_eq : x.service = y.service :=
    inj_on_of_nodup_map vips x_service y_service (x_vip.trans y_vip.symm)
  obtain ⟨service, ⟨protocol, port⟩, backends⟩ := x
  obtain ⟨service', ⟨protocol', port'⟩, backends'⟩ := y
  simp_all

include arranges own collisionless vips literal in
theorem chainLottery_root_of_matches (x_mem : x ∈ expansions services) (matched : x.Matches packet)
    (backends_eq : x.backends = first :: rest) (depth : Nat) :
    chainLottery (rulesetOf arranged).chainRules packet (depth + 3) rootChain =
      rewriting (dnatTarget · x.portStr) first rest := by
  have leads : ∀ y ∈ expansionsOf arranged, y.Matches packet →
      chainLottery (rulesetOf arranged).chainRules packet (depth + 2) y.svcChain =
        rewriting (dnatTarget · x.portStr) first rest := by
    intro y y_arranged y_matches
    obtain rfl := eq_of_matches vips literal ((mem_expansionsOf arranges).mp y_arranged) x_mem
      y_matches matched
    exact chainLottery_svcChain arranges own collisionless x_mem matched backends_eq depth
  rw [chainLottery, chainRules_root, rulesLottery_root (decides_rewriting _ _ _) leads,
    if_pos ⟨x, (mem_expansionsOf arranges).mpr x_mem, matched⟩]

include arranges in
theorem chainLottery_root_of_not_matches (unmatched : ∀ x ∈ expansions services, ¬ x.Matches packet)
    (depth : Nat) :
    chainLottery (rulesetOf arranged).chainRules packet (depth + 1) rootChain = .sure .passes := by
  have none : ∀ x ∈ expansionsOf arranged, ¬ x.Matches packet := fun x mem =>
    unmatched x ((mem_expansionsOf arranges).mp mem)
  have decides : Decides (.sure .exhausted) := fun next => rfl
  rw [chainLottery, chainRules_root,
    rulesLottery_root decides fun x mem matched => absurd matched (none x mem),
    if_neg fun ⟨x, mem, matched⟩ => none x mem matched]

theorem chance_rewriting {port : Int} (nodup : (first :: rest).Nodup) (verdict : Verdict) :
    (rewriting (dnatTarget · (itoaInt port)) first rest).chance verdict =
      if ∃ backend ∈ first :: rest, verdict = .rewritten (dnatTarget backend (itoaInt port)) then
        1 / ((first :: rest).length : ℚ)
      else 0 := by
  let targets : List Verdict :=
    (first :: rest).map fun backend => .rewritten (dnatTarget backend (itoaInt port))
  have targets_nodup : targets.Nodup := by
    refine nodup.map fun left right same => ?_
    exact (dnatTarget_injective (Verdict.rewritten.inj same)).1
  have picked : (rewriting (dnatTarget · (itoaInt port)) first rest).chance verdict =
      targets.count verdict / (first :: rest).length := by
    rw [rewriting, Lottery.chance_pick, length_map, length_cons]
    push_cast
    rfl
  rw [picked]
  split
  case isTrue listed =>
    have mem : verdict ∈ targets := by
      obtain ⟨backend, in_backends, rfl⟩ := listed
      exact mem_map_of_mem in_backends
    rw [count_eq_one_of_mem targets_nodup mem, Nat.cast_one]
  case isFalse unlisted =>
    have absent : verdict ∉ targets := fun mem => by
      obtain ⟨backend, in_backends, same⟩ := mem_map.mp mem
      exact unlisted ⟨backend, in_backends, same.symm⟩
    rw [count_eq_zero_of_not_mem absent, Nat.cast_zero, zero_div]

end Packets

/-- The ports and backends agree up to order, repetition and the spelling of protocols. -/
structure ServiceDNAT.Alike (left right : ServiceDNAT) : Prop where
  names : left.names = right.names
  vip : left.vip = right.vip
  ports : ∀ p : PortDNAT, (∃ q ∈ left.ports, q.normal = p) ↔ ∃ q ∈ right.ports, q.normal = p
  backends : ∀ backend ≠ [], (backend ∈ left.backends ↔ backend ∈ right.backends)

theorem lessPort_orders : Orders lessPort fun p : PortDNAT => (p.port, p.protocol) :=
  Orders.lt.byField less_orders.onField

theorem sortedPorts_eq {left right : List PortDNAT}
    (same : ∀ p : PortDNAT, (∃ q ∈ left, q.normal = p) ↔ ∃ q ∈ right, q.normal = p) :
    sortedPorts left = sortedPorts right := by
  refine sort_eq_of_mem_iff lessPort_orders ?_ (Accumulation.nodup_firstOf _ _)
    (Accumulation.nodup_firstOf _ _) fun p => ?_
  · rintro ⟨_, _⟩ ⟨_, _⟩ same_key
    cases same_key
    rfl
  · have mem_iff : ∀ ports : List PortDNAT, p ∈ Accumulation.firstOf portKey
        (ports.map fun p => { p with protocol := normalizeProto p.protocol }) ↔
          ∃ q ∈ ports, q.normal = p := fun ports =>
      (mem_sort lessPort).symm.trans mem_sortedPorts
    rw [mem_iff, mem_iff, same]

theorem uniqueSortedStrings_eq {left right : List Str} (same : ∀ s ≠ [], (s ∈ left ↔ s ∈ right)) :
    uniqueSortedStrings left = uniqueSortedStrings right := by
  refine sort_eq_of_mem_iff less_orders (fun _ _ => id) (nodup_dedup _) (nodup_dedup _) fun s => ?_
  simp only [mem_dedup, mem_filter]
  exact and_congr_left fun s_ne => same s (by simpa using s_ne)

/-- What the planner makes of one port. -/
def Expansion.output (x : Expansion) : List Str × List Rule := (x.chains, x.rules)

theorem expansionsOf_cons (s : ServiceDNAT) (rest : List ServiceDNAT) :
    expansionsOf (s :: rest) = expansionsOf [s] ++ expansionsOf rest := by
  rw [expansionsOf, expansionsOf, expansionsOf, ← singleton_append, filter_append, flatMap_append]

theorem ServiceDNAT.Alike.output_eq {left right : ServiceDNAT} (alike : left.Alike right)
    (backed : ∃ backend ∈ left.backends, backend ≠ []) :
    (expansionsOf [left]).map Expansion.output = (expansionsOf [right]).map Expansion.output := by
  obtain ⟨names, vip_eq, ports, backends⟩ := alike
  obtain ⟨backend, left_backend, backend_ne⟩ := backed
  have left_ne := ne_nil_of_mem left_backend
  have right_ne := ne_nil_of_mem ((backends backend backend_ne).mp left_backend)
  have ports_eq := sortedPorts_eq ports
  have backends_eq := uniqueSortedStrings_eq backends
  have ports_nil : left.ports = [] ↔ right.ports = [] := by
    rw [← not_iff_not, ← ne_eq, ← sortedPorts_ne_nil, ports_eq, sortedPorts_ne_nil]
  obtain ⟨left_namespace, left_name, vip, left_ports, left_backends⟩ := left
  obtain ⟨right_namespace, right_name, right_vip, right_ports, right_backends⟩ := right
  obtain ⟨rfl, rfl⟩ := Prod.mk.inj names
  obtain rfl : vip = right_vip := vip_eq
  have live : (!(vip == [] || left_ports == [] || left_backends == [])) =
      !(vip == [] || right_ports == [] || right_backends == []) := by
    have left_false : (left_backends == []) = false := by simpa using left_ne
    have right_false : (right_backends == []) = false := by simpa using right_ne
    have same : (left_ports == []) = (right_ports == []) := by
      rw [Bool.eq_iff_iff, beq_iff_eq, beq_iff_eq]
      exact ports_nil
    rw [left_false, right_false, same]
  simp only [expansionsOf, filter_singleton, live]
  cases !(vip == [] || right_ports == [] || right_backends == []) with
  | false => rfl
  | true =>
    simp only [cond_true, flatMap_singleton, map_map, ports_eq, backends_eq]
    rfl

theorem rulesetOf_eq {left right : List ServiceDNAT} (alike : Forall₂ ServiceDNAT.Alike left right)
    (backed : ∀ s ∈ left, ∃ backend ∈ s.backends, backend ≠ []) :
    rulesetOf left = rulesetOf right := by
  have output : (expansionsOf left).map Expansion.output =
      (expansionsOf right).map Expansion.output := by
    induction alike with
    | nil => rfl
    | @cons s t left right first _ ih =>
      rw [expansionsOf_cons, expansionsOf_cons t, map_append, map_append,
        first.output_eq (backed s mem_cons_self),
        ih fun other mem => backed other (mem_cons_of_mem _ mem)]
  have chains_eq : ∀ xs : List Expansion, xs.flatMap Expansion.chains =
      (xs.map Expansion.output).flatMap Prod.fst := fun xs => by
    rw [flatMap_map]
    rfl
  have rules_eq : ∀ xs : List Expansion, xs.flatMap Expansion.rules =
      (xs.map Expansion.output).flatMap Prod.snd := fun xs => by
    rw [flatMap_map]
    rfl
  rw [rulesetOf, rulesetOf, chains_eq, chains_eq, rules_eq, rules_eq, output]

theorem builds_alike {services' : List ServiceDNAT} {rs rs' : Ruleset}
    (own : (services.map ServiceDNAT.names).Nodup)
    (backed : ∀ s ∈ services, ∃ backend ∈ s.backends, backend ≠ [])
    (shuffled : Accumulation.Shuffle ServiceDNAT.Alike services services')
    (builds : Builds services rs) (builds' : Builds services' rs') : rs' = rs := by
  obtain ⟨arranged, arranges, rfl⟩ := builds
  obtain ⟨arranged', arranges', rfl⟩ := builds'
  have keyed : ∀ a b a' b' : ServiceDNAT, a.names = a'.names → b.names = b'.names →
      lessService a b = lessService a' b' := by
    intro a b a' b' first second
    obtain ⟨a_namespace, a_name⟩ := Prod.mk.inj first
    obtain ⟨b_namespace, b_name⟩ := Prod.mk.inj second
    simp only [lessService, byField, a_namespace, a_name, b_namespace, b_name]
  have alike := Arranges.shuffle lessService_orders keyed
    (fun a b (related : a.Alike b) => related.names) (fun a a_mem b b_mem same =>
      inj_on_of_nodup_map own a_mem b_mem same) shuffled arranges arranges'
  exact (rulesetOf_eq alike fun s mem => backed s (arranges.perm.mem_iff.mp mem)).symm

theorem card_distinctBackends (s : ServiceDNAT) :
    s.distinctBackends.card = (uniqueSortedStrings s.backends).length := by
  rw [← toFinset_card_of_nodup (uniqueSortedStrings_nodup s.backends)]
  congr 1
  ext backend
  simp [ServiceDNAT.distinctBackends, mem_uniqueSortedStrings, and_comm]

theorem mem_distinctBackends {s : ServiceDNAT} {backend : Str} :
    backend ∈ s.distinctBackends ↔ backend ∈ uniqueSortedStrings s.backends := by
  simp [ServiceDNAT.distinctBackends, mem_uniqueSortedStrings, and_comm]

/-- Services with their own names and addresses, each with a backend, whose chain names do not
collide. -/
structure Plannable (services : List ServiceDNAT) : Prop where
  names : (services.map ServiceDNAT.names).Nodup
  vips : (services.map fun s => vipAddress s.vip).Nodup
  literal : ∀ s ∈ services, (vipAddress s.vip).isSome
  backed : ∀ s ∈ services, ∃ backend ∈ s.backends, backend ≠ []
  collisionless : Collisionless services

theorem exists_expansion (plannable : Plannable services) {s : ServiceDNAT} (s_mem : s ∈ services)
    (serves : s.Serves packet) :
    ∃ x ∈ expansions services, x.service = s ∧ x.Matches packet ∧
      x.port.port = packet.destinationPort ∧ x.backends = uniqueSortedStrings s.backends := by
  obtain ⟨vip_eq, p, p_mem, proto_eq, port_eq⟩ := serves
  obtain ⟨backend, backend_mem, -⟩ := plannable.backed s s_mem
  have vip_ne : s.vip ≠ [] := by
    intro empty
    rw [empty] at vip_eq
    cases vip_eq
  have x_mem : ⟨s, p.normal, uniqueSortedStrings s.backends⟩ ∈ expansions services :=
    mem_expansions.mpr ⟨s_mem, vip_ne, ne_nil_of_mem backend_mem,
      mem_sortedPorts.mpr ⟨p, p_mem, rfl⟩, rfl⟩
  have matched := (matches_iff plannable.literal x_mem packet).mpr ⟨vip_eq, proto_eq, port_eq⟩
  exact ⟨_, x_mem, rfl, matched, port_eq, rfl⟩

theorem serves_of_matches (plannable : Plannable services) {x : Expansion}
    (x_mem : x ∈ expansions services) (matched : x.Matches packet) :
    x.service ∈ services ∧ x.service.Serves packet := by
  obtain ⟨vip_eq, proto_eq, port_eq⟩ := (matches_iff plannable.literal x_mem packet).mp matched
  obtain ⟨in_services, -, -, in_ports, -⟩ := mem_expansions.mp x_mem
  obtain ⟨p, p_mem, port⟩ := mem_sortedPorts.mp in_ports
  refine ⟨in_services, vip_eq, p, p_mem, ?_, ?_⟩
  · rw [← proto_eq, ← port]
    rfl
  · rw [← port_eq, ← port]
    rfl

/-- A packet for a service is rewritten to one of its backends on the same port, each with the same
probability; any other packet passes.  Rules jump to planned chains only, and the ruleset depends on
the services as sets of ports and backends. -/
theorem planned_rules_balance {services : List ServiceDNAT} (plannable : Plannable services)
    {rs : Ruleset} (builds : Builds services rs) :
    (∀ s ∈ services, ∀ packet, s.Serves packet → ∀ depth verdict,
      (chainLottery rs.chainRules packet (depth + 3) rootChain).chance verdict =
        if ∃ backend ∈ s.distinctBackends,
            verdict = .rewritten (dnatTarget backend (itoa packet.destinationPort)) then
          1 / (s.distinctBackends.card : ℚ)
        else 0) ∧
    (∀ packet, (∀ s ∈ services, ¬ s.Serves packet) → ∀ depth,
      chainLottery rs.chainRules packet (depth + 3) rootChain = .sure .passes) ∧
    (∀ rule ∈ rs.rules, ∀ target ∈ jumpTarget rule.args,
      target = "DNAT" ∨ target ∈ rs.chains) ∧
    ∀ services' rs', Accumulation.Shuffle ServiceDNAT.Alike services services' →
      Builds services' rs' → rs' = rs := by
  refine ⟨?_, ?_, ?_, fun services' rs' shuffled builds' =>
    builds_alike plannable.names plannable.backed shuffled builds builds'⟩
  all_goals obtain ⟨arranged, arranges, rfl⟩ := builds
  · intro s s_mem packet serves depth verdict
    obtain ⟨x, x_mem, rfl, matched, port_eq, backends_eq⟩ :=
      exists_expansion plannable s_mem serves
    obtain ⟨backend, backend_mem, backend_ne⟩ := plannable.backed x.service s_mem
    have some_backend : x.backends ≠ [] := by
      rw [backends_eq]
      exact ne_nil_of_mem (mem_uniqueSortedStrings.mpr ⟨backend_mem, backend_ne⟩)
    obtain ⟨first, rest, cons_eq⟩ := exists_cons_of_ne_nil some_backend
    have port_text : itoaInt x.port.port = itoa packet.destinationPort :=
      itoaInt_eq_itoa_iff.mpr port_eq
    rw [chainLottery_root_of_matches arranges plannable.names plannable.collisionless plannable.vips
      plannable.literal x_mem matched cons_eq depth]
    rw [Expansion.portStr, chance_rewriting (cons_eq ▸ backends_nodup x_mem), ← cons_eq, port_text,
      card_distinctBackends]
    simp only [mem_distinctBackends, ← backends_eq]
  · intro packet unserved depth
    refine chainLottery_root_of_not_matches arranges (fun x x_mem matched => ?_) (depth + 2)
    obtain ⟨in_services, serves⟩ := serves_of_matches plannable x_mem matched
    exact unserved x.service in_services serves
  · intro rule mem target found
    obtain ⟨known, known_eq, shape⟩ :=
      (ClusterSet.wellPlanned_rulesetOf arranged).target rule mem
    obtain rfl : known = target := Option.some.inj (known_eq.symm.trans found)
    exact shape

/-- A packet to the service. -/
def apiPacket : Packet IP where
  source := .four 0x0A000007
  destination := .four 0xF1000009
  protocol := .tcp
  destinationPort := 8080
  state := .new

theorem planned_rules_balance_api :
    (chainLottery (buildRuleset [apiService]).chainRules apiPacket 3 rootChain).chance
      (.rewritten "10.0.0.1:8080") = 1 / 2 := by
  have plannable : Plannable [apiService] := by
    constructor <;> decide +kernel
  have serves : apiService.Serves apiPacket := by
    refine ⟨by decide +kernel, ⟨"TCP", 8080⟩, by decide, by decide +kernel, rfl⟩
  obtain ⟨balanced, -⟩ := planned_rules_balance plannable (builds_buildRuleset [apiService])
  have picked := balanced apiService mem_cons_self apiPacket serves 0
    (.rewritten "10.0.0.1:8080")
  rw [if_pos ⟨"10.0.0.1", by decide +kernel, by decide +kernel⟩] at picked
  have two : apiService.distinctBackends.card = 2 := by decide +kernel
  rw [picked, two]
  norm_num

end DatawerxMesh.NatPlane
