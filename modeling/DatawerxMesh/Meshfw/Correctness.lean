import DatawerxMesh.Meshfw.Collected

/-!
# Correctness of the firewall compiler

What network policies mean, independently of rules.  The compiled chain decides new packets
accordingly.
-/

namespace DatawerxMesh.Meshfw

open Go Addressing Netfilter Accumulation List

variable {packet : Packet (BitVec 32)} {text : Str}

/-- The address lies in a range text. -/
def InCIDR (text : Str) (address : BitVec 32) : Prop :=
  ∃ net, parseNet text = some net ∧ net.contains (.four address) = true

/-- A policy without destinations selects every address, any other one those in its CIDRs. -/
def Policy.Selects (p : Policy) (address : BitVec 32) : Prop :=
  p.destinations = [] ∨ ∃ d ∈ p.destinations, InCIDR d address

/-- A rule admits a source by the CIDRs of a named cluster or by a CIDR of its own. -/
def IngressRule.AdmitsSource (clusterCIDRs : Str → List Str) (ing : IngressRule)
    (address : BitVec 32) : Prop :=
  ∃ selector ∈ ing.from_,
    (∃ id ∈ selector.clusterIDs, ∃ cidr ∈ clusterCIDRs id, InCIDR cidr address) ∨
      ∃ cidr ∈ selector.cidrs, InCIDR cidr address

/-- Names of a transport protocol, in any letter case; the empty text means TCP. -/
def Names (text : Str) : Protocol → Prop
  | .tcp => text = [] ∨ toLower text = "tcp"
  | .udp => toLower text = "udp"
  | .sctp => toLower text = "sctp"
  | .other _ => False

/-- A rule without ports admits all of them, any other one those listed. -/
def IngressRule.AdmitsPort (ing : IngressRule) (protocol : Protocol) (port : Nat) : Prop :=
  ing.ports = [] ∨ ∃ pt ∈ ing.ports, Names pt.protocol protocol ∧ pt.port = port

/-- The policies let a packet through. -/
def Allowed (policies : List Policy) (clusterCIDRs : Str → List Str) (packet : Packet (BitVec 32)) :
    Prop :=
  (∀ p ∈ policies, ¬ p.Selects packet.destination) ∨
    ∃ p ∈ policies, p.Selects packet.destination ∧ ∃ ing ∈ p.ingress,
      ing.AdmitsSource clusterCIDRs packet.source ∧
        ing.AdmitsPort packet.protocol packet.destinationPort

/-- The filter table, with membership as `net.IPNet.Contains` has it. -/
def filter4 : Family (BitVec 32) where
  reads text := (parseNet text).isSome
  member text address := (parseNet text).any fun net => net.contains (.four address)
  netmap := ipv4.netmap

/-- A packet passes unless the first rule that applies drops it. -/
def Ruleset.permits (rs : Ruleset) (packet : Packet (BitVec 32)) : Bool :=
  decide (evalRules filter4 .postrouting noJump (rs.rules.map Rule.args) packet ≠ some .drop)

/-- An address operand that may stand for any address. -/
def matchesAddress (text : Str) (address : BitVec 32) : Bool :=
  text == [] || filter4.member text address

/-- The combination matches a packet. -/
def AcceptKey.matchesPacket (key : AcceptKey) (packet : Packet (BitVec 32)) : Bool :=
  matchesAddress key.src packet.source && (matchesAddress key.dst packet.destination &&
    (key.proto == [] || (key.proto == packet.protocol.name &&
      (key.port == [] || key.port == itoa packet.destinationPort))))

/-- The option for a range, if one is given. -/
def addressOption (flag : Flag) (text : Str) : List (Flag × Str) :=
  if text ≠ [] then [(flag, text)] else []

/-- The options for protocol and port. -/
def serviceOptions (proto port : Str) : List (Flag × Str) :=
  if proto ≠ [] then
    (.protocol, proto) :: if port ≠ [] then [(.extension, proto), (.dport, port)] else []
  else []

theorem options_address {name : Str} {flag : Flag} (named : Flag.ofText name = some flag)
    (text : Str) :
    options (if text ≠ [] then [name, text] else []) = some (addressOption flag text) := by
  by_cases empty : text = [] <;> simp [addressOption, options, named, empty]

theorem options_service (proto port : Str) :
    options (if proto ≠ [] then
        [str "-p", proto] ++ (if port ≠ [] then [str "-m", proto, str "--dport", port] else [])
      else []) = some (serviceOptions proto port) := by
  by_cases proto_empty : proto = [] <;> by_cases port_empty : port = [] <;>
    simp [serviceOptions, options, proto_empty, port_empty]

theorem dropArgs_eq (dst : Str) :
    dropArgs dst = (if dst ≠ [] then [str "-d", dst] else []) ++ [str "-j", str "DROP"] := by
  by_cases empty : dst = [] <;> simp [dropArgs, empty]

theorem applies_addressOption_source (text : Str) (packet : Packet (BitVec 32)) :
    (addressOption .source text).all (applies filter4 packet) =
      matchesAddress text packet.source := by
  by_cases empty : text = [] <;> simp [addressOption, matchesAddress, applies, empty]

theorem applies_addressOption_destination (text : Str) (packet : Packet (BitVec 32)) :
    (addressOption .destination text).all (applies filter4 packet) =
      matchesAddress text packet.destination := by
  by_cases empty : text = [] <;> simp [addressOption, matchesAddress, applies, empty]

theorem applies_serviceOptions (proto port : Str) (packet : Packet (BitVec 32)) :
    (serviceOptions proto port).all (applies filter4 packet) =
      (proto == [] || (proto == packet.protocol.name &&
        (port == [] || port == itoa packet.destinationPort))) := by
  by_cases proto_empty : proto = []
  · simp [serviceOptions, proto_empty]
  · by_cases port_empty : port = [] <;>
      simp [serviceOptions, applies, proto_empty, port_empty, Bool.beq_eq_decide_eq]

theorem evalRule_acceptArgs (key : AcceptKey) (packet : Packet (BitVec 32)) :
    evalRule filter4 .postrouting noJump packet (acceptArgs key) =
      if key.matchesPacket packet then some (.accept packet.source) else none := by
  have source := options_address ofText_source key.src
  have destination := options_address ofText_destination key.dst
  have service := options_service key.proto key.port
  have no_jump : ∀ option ∈ addressOption .source key.src ++ addressOption .destination key.dst ++
      serviceOptions key.proto key.port, option.1 ≠ .jump := by
    simp only [addressOption, serviceOptions]
    grind
  rw [acceptArgs, evalRule_verdict filter4 .postrouting noJump packet
    (options_append (options_append source destination) service) no_jump
    (targetDecision_accept filter4 .postrouting noJump packet)]
  rw [all_append, all_append, applies_addressOption_source,
    applies_addressOption_destination, applies_serviceOptions, Bool.and_assoc]
  rfl

theorem evalRule_dropArgs (dst : Str) (packet : Packet (BitVec 32)) :
    evalRule filter4 .postrouting noJump packet (dropArgs dst) =
      if matchesAddress dst packet.destination then some .drop else none := by
  have no_jump : ∀ option ∈ addressOption .destination dst, option.1 ≠ .jump := by
    simp only [addressOption]
    grind
  rw [dropArgs_eq, evalRule_verdict filter4 .postrouting noJump packet
    (options_address ofText_destination dst) no_jump
    (targetDecision_drop filter4 .postrouting noJump packet), applies_addressOption_destination]

theorem evalRule_conntrackArgs (not_established : packet.state ≠ .established)
    (not_related : packet.state ≠ .related) :
    evalRule filter4 .postrouting noJump packet conntrackArgs = none := by
  have read : options conntrackArgs = some
      [(.extension, str "conntrack"), (.ctstate, str "RELATED,ESTABLISHED"),
        (.jump, str "ACCEPT")] := rfl
  have other : packet.state.name ∉ (str "RELATED,ESTABLISHED").splitOn 44 := by
    cases state : packet.state with
    | new | invalid | untracked => decide
    | established => exact absurd state not_established
    | related => exact absurd state not_related
  rw [evalRule, read]
  simp [applies, other]

/-- New packets are decided by the accepted keys, then by the protected destinations. -/
theorem FwBuilder.evalRules_ruleset (b : FwBuilder) (not_established : packet.state ≠ .established)
    (not_related : packet.state ≠ .related) :
    evalRules filter4 .postrouting noJump (b.ruleset.rules.map Rule.args) packet =
      (evalRules filter4 .postrouting noJump
        ((Sorting.sort lessAccept b.accepts.dedup).map acceptArgs) packet).or
      (evalRules filter4 .postrouting noJump
        ((Sorting.sort lessDest b.protectedDest.dedup).map dropArgs) packet) := by
  have args_eq : b.ruleset.rules.map Rule.args = [conntrackArgs] ++
      ((Sorting.sort lessAccept b.accepts.dedup).map acceptArgs ++
        (Sorting.sort lessDest b.protectedDest.dedup).map dropArgs) := by
    rw [FwBuilder.ruleset, map_cons, map_append, map_map, map_map]
    rfl
  have first : evalRules filter4 .postrouting noJump [conntrackArgs] packet = none := by
    simp [evalRules, evalRule_conntrackArgs not_established not_related]
  rw [args_eq, evalRules_append, first, Option.none_or, evalRules_append]

theorem FwBuilder.evalRules_accepts (b : FwBuilder) (packet : Packet (BitVec 32))
    (decision : Decision (BitVec 32)) :
    evalRules filter4 .postrouting noJump
        ((Sorting.sort lessAccept b.accepts.dedup).map acceptArgs) packet = some decision ↔
      decision = .accept packet.source ∧ ∃ key ∈ b.accepts, key.matchesPacket packet = true := by
  rw [evalRules_map (evalRule_acceptArgs · packet)]
  simp only [Sorting.mem_sort, mem_dedup]

theorem FwBuilder.evalRules_drops (b : FwBuilder) (packet : Packet (BitVec 32))
    (decision : Decision (BitVec 32)) :
    evalRules filter4 .postrouting noJump
        ((Sorting.sort lessDest b.protectedDest.dedup).map dropArgs) packet = some decision ↔
      decision = .drop ∧ ∃ d ∈ b.protectedDest, matchesAddress d packet.destination = true := by
  rw [evalRules_map (evalRule_dropArgs · packet)]
  simp only [Sorting.mem_sort, mem_dedup]

theorem FwBuilder.permits_iff (b : FwBuilder) (not_established : packet.state ≠ .established)
    (not_related : packet.state ≠ .related) :
    b.ruleset.permits packet = true ↔
      (∃ key ∈ b.accepts, key.matchesPacket packet = true) ∨
        ¬ ∃ d ∈ b.protectedDest, matchesAddress d packet.destination = true := by
  rw [Ruleset.permits, decide_eq_true_eq, b.evalRules_ruleset not_established not_related, Ne,
    Option.or_eq_some_iff, b.evalRules_drops, Option.eq_none_iff_forall_ne_some]
  simp only [Ne, b.evalRules_accepts, reduceCtorEq, false_and, false_or, true_and, not_and,
    forall_eq]
  exact or_iff_not_imp_left.symm

theorem filter4_member_iff {address : BitVec 32} :
    filter4.member text address = true ↔ InCIDR text address := by
  simp [filter4, InCIDR, Option.any_eq_true]

theorem keeps_of_inCIDR {address : BitVec 32} (inside : InCIDR text address) :
    FwBuilder.keeps text = true := by
  obtain ⟨net, net_eq, contains⟩ := inside
  obtain ⟨⟨ip, net⟩, parsed, rfl⟩ := Option.map_eq_some_iff.mp net_eq
  have text_ne : text ≠ [] := by
    rintro rfl
    cases parsed
  simp [FwBuilder.keeps, text_ne, isIPv4CIDR, parsed, IPNet.to4_of_contains parsed contains]

theorem matchesAddress_of_keeps (kept : FwBuilder.keeps text = true) (address : BitVec 32) :
    matchesAddress text address = true ↔ InCIDR text address := by
  have text_ne : text ≠ [] := by
    rintro rfl
    simp [FwBuilder.keeps] at kept
  simp [matchesAddress, text_ne, filter4_member_iff]

theorem Policy.exists_dests_iff (p : Policy) (address : BitVec 32) :
    (∃ d ∈ p.dests, matchesAddress d address = true) ↔ p.Selects address := by
  rw [Policy.dests, Policy.Selects]
  by_cases everything : p.destinations = []
  · simp [everything, matchesAddress]
  · simp only [everything, if_false, false_or, mem_filter]
    constructor
    · rintro ⟨d, ⟨mem, kept⟩, matched⟩
      exact ⟨d, mem, (matchesAddress_of_keeps kept address).mp matched⟩
    · rintro ⟨d, mem, inside⟩
      have kept := keeps_of_inCIDR inside
      exact ⟨d, ⟨mem, kept⟩, (matchesAddress_of_keeps kept address).mpr inside⟩

theorem IngressRule.exists_sources_iff (clusterCIDRs : Str → List Str) (ing : IngressRule)
    (address : BitVec 32) :
    (∃ s ∈ resolveSources ing.from_ clusterCIDRs, FwBuilder.keeps s = true ∧
      matchesAddress s address = true) ↔ ing.AdmitsSource clusterCIDRs address := by
  have usable : ∀ s, FwBuilder.keeps s = true ∧ matchesAddress s address = true ↔
      InCIDR s address := fun s =>
    ⟨fun ⟨kept, matched⟩ => (matchesAddress_of_keeps kept address).mp matched,
      fun inside => ⟨keeps_of_inCIDR inside,
        (matchesAddress_of_keeps (keeps_of_inCIDR inside) address).mpr inside⟩⟩
  simp only [usable, resolveSources, mem_flatMap, mem_append]
  constructor
  · rintro ⟨s, ⟨selector, mem, ⟨id, named, listed⟩ | listed⟩, inside⟩
    · exact ⟨selector, mem, .inl ⟨id, named, s, listed, inside⟩⟩
    · exact ⟨selector, mem, .inr ⟨s, listed, inside⟩⟩
  · rintro ⟨selector, mem, ⟨id, named, s, listed, inside⟩ | ⟨s, listed, inside⟩⟩
    · exact ⟨s, ⟨selector, mem, .inl ⟨id, named, listed⟩⟩, inside⟩
    · exact ⟨s, ⟨selector, mem, .inr listed⟩, inside⟩

/-- The names of the transport protocols that have ports. -/
def protocolNames : List Str := ["tcp", "udp", "sctp"]

/-- The protocol of a port is empty or a name in any letter case. -/
def KnownProtocol (text : Str) : Prop := text = [] ∨ toLower text ∈ protocolNames

theorem normalizeProto_of_mem (named : toLower text ∈ protocolNames) :
    normalizeProto text = toLower text := by
  have names_solid : (protocolNames.all fun name => name.all isSolid) = true := by decide
  have solid : ∀ byte ∈ toLower text, isSolid byte = true := by
    simpa using all_eq_true.mp names_solid _ named
  have lower_ne : toLower text ≠ [] := fun empty => absurd (empty ▸ named) (by decide)
  rw [normalizeProto, trimSpace_of_toLower solid]
  exact if_neg lower_ne

theorem normalizeProto_mem (known : KnownProtocol text) : normalizeProto text ∈ protocolNames := by
  rcases known with rfl | named
  · decide
  · rwa [normalizeProto_of_mem named]

theorem itoa_not_mem_protocolNames (number : Nat) : itoa number ∉ protocolNames := by
  intro mem
  have letters : (protocolNames.all fun name => name.any fun byte => !isDigit byte) = true := by
    decide
  obtain ⟨byte, in_number, not_digit⟩ := any_eq_true.mp (all_eq_true.mp letters _ mem)
  rw [isDigit_of_mem_itoa in_number] at not_digit
  cases not_digit

theorem normalizeProto_eq_name_iff (known : KnownProtocol text) (protocol : Protocol) :
    normalizeProto text = protocol.name ↔ Names text protocol := by
  have not_number : ∀ number, normalizeProto text ≠ itoa number := fun number same =>
    itoa_not_mem_protocolNames number (same ▸ normalizeProto_mem known)
  rcases known with rfl | named
  · cases protocol with
    | tcp | udp | sctp => simp only [Names]; decide
    | other number => exact iff_of_false (not_number number) id
  · have text_ne : text ≠ [] := by
      rintro rfl
      exact absurd named (by decide)
    cases protocol with
    | tcp => rw [normalizeProto_of_mem named]; exact (or_iff_right text_ne).symm
    | udp | sctp => rw [normalizeProto_of_mem named]; exact Iff.rfl
    | other number => exact iff_of_false (not_number number) id

theorem IngressRule.exists_acceptKeys_iff {ing : IngressRule}
    (known : ∀ pt ∈ ing.ports, KnownProtocol pt.protocol) (src dst : Str)
    (packet : Packet (BitVec 32)) :
    (∃ key ∈ FwBuilder.acceptKeys src dst ing.ports, key.matchesPacket packet = true) ↔
      matchesAddress src packet.source = true ∧ matchesAddress dst packet.destination = true ∧
        ing.AdmitsPort packet.protocol packet.destinationPort := by
  have port_iff : ∀ pt ∈ ing.ports,
      ((AcceptKey.mk src dst (normalizeProto pt.protocol) (portStr pt.port)).matchesPacket packet =
        true ↔ (matchesAddress src packet.source = true ∧
          matchesAddress dst packet.destination = true) ∧
          Names pt.protocol packet.protocol ∧ pt.port = packet.destinationPort) := by
    intro pt mem
    have proto_ne : normalizeProto pt.protocol ≠ [] := fun same =>
      absurd (same ▸ normalizeProto_mem (known pt mem)) (by decide)
    simp [AcceptKey.matchesPacket, proto_ne, portStr, itoaInt_ne_nil, itoaInt_eq_itoa_iff,
      normalizeProto_eq_name_iff (known pt mem), and_assoc]
  rw [FwBuilder.acceptKeys, AdmitsPort, ← and_assoc]
  split
  · rename_i all_ports
    simp [AcceptKey.matchesPacket, all_ports]
  · rename_i some_ports
    rw [or_iff_right some_ports]
    constructor
    · rintro ⟨key, in_keys, matched⟩
      obtain ⟨pt, mem, rfl⟩ := mem_map.mp in_keys
      obtain ⟨addresses, service⟩ := (port_iff pt mem).mp matched
      exact ⟨addresses, pt, mem, service⟩
    · rintro ⟨addresses, pt, mem, service⟩
      exact ⟨_, mem_map_of_mem mem, (port_iff pt mem).mpr ⟨addresses, service⟩⟩

section Compiled

variable {clusterCIDRs : Str → List Str}

theorem Policy.exists_protect_iff (p : Policy) (address : BitVec 32) :
    (∃ d, p.Adds clusterCIDRs (.protect d) ∧ matchesAddress d address = true) ↔
      p.Selects address := by
  rw [← p.exists_dests_iff]
  simp [Policy.Adds, Reported, IngressRule.Adds]

theorem Policy.adds_accept_iff (p : Policy) (key : AcceptKey) :
    p.Adds clusterCIDRs (.accept key) ↔
      ∃ ing ∈ p.ingress, ∃ d ∈ p.dests, ∃ s ∈ resolveSources ing.from_ clusterCIDRs,
        FwBuilder.keeps s = true ∧ key ∈ FwBuilder.acceptKeys s d ing.ports := by
  simp only [Policy.Adds, Reported, IngressRule.Adds, reduceCtorEq, and_false, exists_false,
    false_or, Item.accept.injEq, exists_eq_right']
  refine ⟨And.right, fun added => ⟨?_, added⟩⟩
  obtain ⟨_, _, d, in_dests, _⟩ := added
  exact ne_nil_of_mem in_dests

theorem Policy.exists_accept_iff {p : Policy}
    (known : ∀ ing ∈ p.ingress, ∀ pt ∈ ing.ports, KnownProtocol pt.protocol)
    (packet : Packet (BitVec 32)) :
    (∃ key, p.Adds clusterCIDRs (.accept key) ∧ key.matchesPacket packet = true) ↔
      p.Selects packet.destination ∧ ∃ ing ∈ p.ingress,
        ing.AdmitsSource clusterCIDRs packet.source ∧
          ing.AdmitsPort packet.protocol packet.destinationPort := by
  simp only [Policy.adds_accept_iff]
  constructor
  · rintro ⟨key, ⟨ing, in_ingress, d, in_dests, s, in_sources, kept, in_keys⟩, matched⟩
    obtain ⟨source, destination, port⟩ :=
      (ing.exists_acceptKeys_iff (known ing in_ingress) s d packet).mp ⟨key, in_keys, matched⟩
    exact ⟨(p.exists_dests_iff _).mp ⟨d, in_dests, destination⟩, ing, in_ingress,
      (ing.exists_sources_iff clusterCIDRs _).mp ⟨s, in_sources, kept, source⟩, port⟩
  · rintro ⟨selected, ing, in_ingress, admitted, port⟩
    obtain ⟨d, in_dests, destination⟩ := (p.exists_dests_iff _).mpr selected
    obtain ⟨s, in_sources, kept, source⟩ := (ing.exists_sources_iff clusterCIDRs _).mpr admitted
    obtain ⟨key, in_keys, matched⟩ :=
      (ing.exists_acceptKeys_iff (known ing in_ingress) s d packet).mpr ⟨source, destination, port⟩
    exact ⟨key, ⟨ing, in_ingress, d, in_dests, s, in_sources, kept, in_keys⟩, matched⟩

end Compiled

/-- The compiled chain decides new packets as the policies mean it. -/
theorem buildFirewall_permits_iff {policies : List Policy} {clusterCIDRs : Str → List Str}
    (known : ∀ p ∈ policies, ∀ ing ∈ p.ingress, ∀ pt ∈ ing.ports, KnownProtocol pt.protocol)
    (not_established : packet.state ≠ .established) (not_related : packet.state ≠ .related) :
    (buildFirewall policies clusterCIDRs).permits packet = true ↔
      Allowed policies clusterCIDRs packet := by
  rw [buildFirewall, FwBuilder.permits_iff _ not_established not_related, or_comm]
  refine or_congr ?_ ?_
  · refine (not_congr <| (FwBuilder.exists_has_addPolicies Item.protect _ policies).trans <|
      exists_congr fun p => and_congr_right fun _ =>
        p.exists_protect_iff packet.destination).trans ?_
    simp only [not_exists, not_and]
  · refine (FwBuilder.exists_has_addPolicies Item.accept _ policies).trans ?_
    exact exists_congr fun p => and_congr_right fun mem =>
      Policy.exists_accept_iff (known p mem) packet

/-- The compiled chain decides new packets as the policies mean it, and it does not depend on the
order in which anything is listed. -/
theorem firewall_correct (policies : List Policy) (clusterCIDRs : Str → List Str) :
    ((∀ p ∈ policies, ∀ ing ∈ p.ingress, ∀ pt ∈ ing.ports, KnownProtocol pt.protocol) →
      ∀ packet : Packet (BitVec 32), packet.state ≠ .established → packet.state ≠ .related →
        ((buildFirewall policies clusterCIDRs).permits packet = true ↔
          Allowed policies clusterCIDRs packet)) ∧
    ∀ policies' clusterCIDRs', Shuffle Policy.Shuffled policies policies' →
      (∀ id, (clusterCIDRs id).Perm (clusterCIDRs' id)) →
      buildFirewall policies' clusterCIDRs' = buildFirewall policies clusterCIDRs := by
  constructor
  · intro known packet not_established not_related
    exact buildFirewall_permits_iff known not_established not_related
  · intro policies' clusterCIDRs' shuffled clusters
    exact (buildFirewall_shuffled clusters shuffled).symm

/-- One cluster with one range. -/
def databaseClusters (id : Str) : List Str :=
  if id = "cluster-b" then ["10.40.0.0/16"] else []

/-- Only `cluster-b` may query the database. -/
def databaseRule : IngressRule where
  from_ := [⟨["cluster-b", "ghost"], []⟩]
  ports := [⟨"TCP", 5432⟩]

/-- A policy with a range of each family. -/
def databasePolicy : Policy where
  destinations := ["10.96.5.0/24", "fd00::/64"]
  ingress := [databaseRule]

/-- A packet to the database. -/
def databaseQuery (source : BitVec 32) : Packet (BitVec 32) where
  source := source
  destination := 0x0A600507
  protocol := .tcp
  destinationPort := 5432
  state := .new

theorem firewall_correct_database :
    Allowed [databasePolicy] databaseClusters (databaseQuery 0x0A280102) ∧
    ¬ Allowed [databasePolicy] databaseClusters (databaseQuery 0x0A290102) ∧
    buildFirewall [⟨databasePolicy.destinations.reverse, [databaseRule]⟩] databaseClusters =
      buildFirewall [databasePolicy] databaseClusters := by
  have known : ∀ p ∈ [databasePolicy], ∀ ing ∈ p.ingress, ∀ pt ∈ ing.ports,
      KnownProtocol pt.protocol := by
    simp only [KnownProtocol]
    decide
  have reordered : Shuffle Policy.Shuffled [databasePolicy]
      [⟨databasePolicy.destinations.reverse, [databaseRule]⟩] := by
    have same_rule : databaseRule.Shuffled databaseRule :=
      ⟨⟨_, .refl _, .cons ⟨.refl _, .refl _⟩ .nil⟩, .refl _⟩
    exact ⟨_, .refl _, .cons ⟨(reverse_perm _).symm, _, .refl _, .cons same_rule .nil⟩ .nil⟩
  obtain ⟨permits_iff, order_free⟩ := firewall_correct [databasePolicy] databaseClusters
  have query_iff := fun source =>
    permits_iff known (databaseQuery source) (by simp [databaseQuery]) (by simp [databaseQuery])
  exact ⟨(query_iff _).mp (by decide +kernel), (query_iff _).not.mp (by decide +kernel),
    order_free _ _ reordered fun _ => .refl _⟩

end DatawerxMesh.Meshfw
