import DatawerxMesh.Reach.Plan
import DatawerxMesh.Topology.Plan

/-!
# Verdicts and packets

The analyzer compares texts and the firewall matches addresses, so a rule may let packets of a peer
in without naming a CIDR of it, and the other way round.
-/

namespace DatawerxMesh.Reach

open Go Addressing Netfilter Meshfw List

/-- The address belongs to a destination as the matrix labels it. -/
def Into (label : Str) (address : BitVec 32) : Prop :=
  label = destLabel [] ∨ InCIDR label address

/-- A new packet from the CIDRs to the labelled destination. -/
structure Enters (cidrs : List Str) (label : Str) (packet : Packet (BitVec 32)) : Prop where
  is_new : packet.state = .new
  port_lt : packet.destinationPort < 2 ^ 16
  source : ∃ cidr ∈ cidrs, InCIDR cidr packet.source
  destination : Into label packet.destination

/-- The first rule that applies to the packet accepts it. -/
def accepted (rs : Ruleset) (packet : Packet (BitVec 32)) : Bool :=
  decide (evalRules filter4 .postrouting noJump (rs.rules.map Rule.args) packet =
    some (.accept packet.source))

/-- Some packets have the protocol and the port of the key. -/
def Usable (key : AcceptKey) : Prop :=
  key.proto = [] ∨ (∃ protocol : Protocol, key.proto = protocol.name) ∧
    (key.port = [] ∨ ∃ port < 2 ^ 16, key.port = itoa port)

/-- The ranges of the key share addresses with a CIDR and with the destination, and its protocol and
port can occur. -/
def Opens (key : AcceptKey) (cidrs : List Str) (dest : Str) : Prop :=
  (∃ cidr ∈ cidrs, ∃ address, InCIDR cidr address ∧ InCIDR key.src address) ∧
    (∃ address, matchesAddress dest address = true ∧ matchesAddress key.dst address = true) ∧
    Usable key

/-- The source of the key is one of the CIDRs or stands for all, its destination is the given one or
none, and its rule can be read back. -/
def Names (key : AcceptKey) (cidrs : List Str) (dest : Str) : Prop :=
  key.Legible ∧ (key.dst = [] ∨ key.dst = dest) ∧ (key.src ∈ anySources ∨ key.src ∈ cidrs)

variable {policies : List Policy} {clusterCIDRs : Str → List Str} {cidrs : List Str} {dest : Str}

theorem into_destLabel (usable : dest = [] ∨ FwBuilder.keeps dest = true) (address : BitVec 32) :
    Into (destLabel dest) address ↔ matchesAddress dest address = true := by
  rcases usable with rfl | kept
  · simp [Into, matchesAddress]
  · have some_dest := ne_of_keeps kept (by decide : FwBuilder.keeps [] = false)
    have not_label := ne_of_keeps kept (by decide : FwBuilder.keeps (destLabel []) = false)
    rw [matchesAddress_of_keeps kept, Into, destLabel, if_neg some_dest, or_iff_right not_label]

theorem exists_packet_iff {key : AcceptKey} (formed : key.Formed)
    (usable : dest = [] ∨ FwBuilder.keeps dest = true) :
    (∃ packet, Enters cidrs (destLabel dest) packet ∧ key.matchesPacket packet = true) ↔
      Opens key cidrs dest := by
  have source := matchesAddress_of_keeps formed.src
  simp only [AcceptKey.matchesPacket, Bool.and_eq_true, Bool.or_eq_true, beq_iff_eq, source]
  constructor
  · rintro ⟨packet, ⟨-, port_lt, ⟨cidr, mem, inside⟩, into⟩, src, dst, service⟩
    refine ⟨⟨cidr, mem, packet.source, inside, src⟩, ⟨packet.destination,
      (into_destLabel usable _).mp into, dst⟩, service.imp_right fun named => ?_⟩
    exact ⟨⟨packet.protocol, named.1⟩, named.2.imp_right fun same => ⟨_, port_lt, same⟩⟩
  · rintro ⟨⟨cidr, mem, sender, inside, src⟩, ⟨receiver, into, dst⟩, service⟩
    have some_service : ∃ (protocol : Protocol) (port : Nat), port < 2 ^ 16 ∧
        (key.proto = [] ∨ key.proto = protocol.name ∧ (key.port = [] ∨ key.port = itoa port)) := by
      rcases service with any_proto | ⟨⟨protocol, named⟩, any_port | ⟨port, port_lt, same⟩⟩
      · exact ⟨.tcp, 0, by decide, .inl any_proto⟩
      · exact ⟨protocol, 0, by decide, .inr ⟨named, .inl any_port⟩⟩
      · exact ⟨protocol, port, port_lt, .inr ⟨named, .inr same⟩⟩
    obtain ⟨protocol, port, port_lt, service⟩ := some_service
    exact ⟨⟨sender, receiver, protocol, port, .new⟩, ⟨rfl, port_lt, ⟨cidr, mem, inside⟩,
      (into_destLabel usable receiver).mpr into⟩, src, dst, service⟩

theorem permits_iff_of_enters (guards : Guards policies dest) {packet : Packet (BitVec 32)}
    (enters : Enters cidrs (destLabel dest) packet) :
    (buildFirewall policies clusterCIDRs).permits packet = true ↔
      ∃ key, Compiles policies clusterCIDRs key ∧ key.matchesPacket packet = true := by
  have is_new := enters.is_new
  rw [permits_buildFirewall_iff (by simp [is_new]) (by simp [is_new])]
  refine or_iff_left fun unguarded => unguarded ⟨dest, guards, ?_⟩
  exact (into_destLabel guards.keeps _).mp enters.destination

theorem accepted_iff {packet : Packet (BitVec 32)} (is_new : packet.state = .new) :
    accepted (buildFirewall policies clusterCIDRs) packet = true ↔
      ∃ key, Compiles policies clusterCIDRs key ∧ key.matchesPacket packet = true := by
  rw [accepted, decide_eq_true_eq, buildFirewall,
    FwBuilder.evalRules_ruleset _ (by simp [is_new]) (by simp [is_new]), Option.or_eq_some_iff,
    FwBuilder.evalRules_accepts, FwBuilder.evalRules_drops]
  simp only [compiles_iff, true_and, reduceCtorEq, false_and, and_false, or_false]

theorem peerAllowed_iff (guards : Guards policies dest) :
    peerAllowed cidrs (interpret (buildFirewall policies clusterCIDRs)).accepts dest = true ↔
      ∃ key, Compiles policies clusterCIDRs key ∧ Names key cidrs dest := by
  simp only [peerAllowed, any_eq_true, mem_accepts_buildFirewall, Bool.and_eq_true,
    Bool.or_eq_true, beq_iff_eq, contains_iff_mem]
  constructor
  · rintro ⟨_, ⟨key, compiles, plain, rfl⟩, dst, src⟩
    have formed := compiles.formed
    have dst_value : (accessOf (acceptArgs key)).dest = argValue (acceptArgs key) "-d" := rfl
    have src_value : (accessOf (acceptArgs key)).source = key.src := formed.argValue_source
    have legible : key.Legible := by
      refine ⟨plain, fun any_dst odd => ?_⟩
      -- the value that is read is the next option, which is no destination
      rw [dst_value, formed.argValue_destination_illegible any_dst odd] at dst
      rcases dst with empty | same
      · exact absurd empty (by decide)
      · rcases guards.keeps with rfl | kept
        · exact absurd same (by decide)
        · exact ne_of_keeps kept (by decide) same.symm
    rw [dst_value, formed.argValue_destination legible] at dst
    rw [src_value] at src
    exact ⟨key, compiles, legible, dst, src⟩
  · rintro ⟨key, compiles, legible, dst, src⟩
    refine ⟨_, ⟨key, compiles, legible.1, rfl⟩, ?_, ?_⟩
    · rwa [← compiles.formed.argValue_destination legible] at dst
    · rwa [← compiles.formed.argValue_source] at src

theorem mem_dests_report {in_ : Input} {p : Peer} (connected : p.connected = true)
    (clear : p.conflict = false) {d : DestReach} :
    d ∈ (in_.report p).dests ↔ ∃ dest, Guards in_.policies dest ∧
      d = ⟨destLabel dest, peerAllowed p.cidrs
        (interpret (buildFirewall in_.policies in_.clusterCIDRs)).accepts dest⟩ := by
  rw [Input.report, dests_reachFor connected clear, mem_map]
  simp only [mem_dedupeSorted, mem_protected_buildFirewall, eq_comm]

theorem permits_of_unguarded (unguarded : ∀ dest, ¬ Guards policies dest)
    (packet : Packet (BitVec 32)) :
    (buildFirewall policies clusterCIDRs).permits packet = true := by
  have replies : evalRule filter4 .postrouting noJump packet conntrackArgs ≠ some .drop := by
    have read : options [str "-m", str "conntrack", str "--ctstate", str "RELATED,ESTABLISHED"] =
        some [(.extension, str "conntrack"), (.ctstate, str "RELATED,ESTABLISHED")] := rfl
    have decided := evalRule_verdict filter4 .postrouting noJump packet read (by decide)
      (targetDecision_accept filter4 .postrouting noJump packet)
    intro dropped
    rw [show conntrackArgs = [str "-m", str "conntrack", str "--ctstate",
      str "RELATED,ESTABLISHED"] ++ [str "-j", str "ACCEPT"] from rfl, decided] at dropped
    split at dropped
    all_goals cases dropped
  rw [Ruleset.permits, decide_eq_true_eq]
  intro dropped
  obtain ⟨args, mem, decided⟩ := exists_of_findSome?_eq_some dropped
  obtain ⟨r, in_rules, rfl⟩ := mem_map.mp mem
  rcases mem_rules_buildFirewall.mp in_rules with rfl | ⟨key, -, rfl⟩ | ⟨dest, guards, -⟩
  · exact replies decided
  · rw [evalRule_acceptArgs] at decided
    split at decided
    all_goals cases decided
  · exact unguarded dest guards

/-- All peers are connected and without conflict, and clusters stand for the CIDRs of their
peers. -/
def Input.Regular (in_ : Input) : Prop :=
  ∀ p ∈ in_.peers, p.connected = true ∧ p.conflict = false ∧ in_.clusterCIDRs p.clusterID = p.cidrs

/-- The firewall drops what the matrix denies, and all protected destinations of a blocked peer. -/
def Input.DenialsSound (in_ : Input) : Prop :=
  ∀ (go : Runtime Unit), ∀ row ∈ (plan go in_).reachabilities, ∀ p ∈ in_.peers,
    row.cluster = p.clusterID → ∀ d ∈ row.dests, d.allowed = false ∨ row.status = .blocked →
      ∀ packet, Enters p.cidrs d.dest packet →
        (buildFirewall in_.policies in_.clusterCIDRs).permits packet = false

theorem Input.Regular.eq_of_clusterID {in_ : Input} (regular : in_.Regular) {p q : Peer}
    (p_listed : p ∈ in_.peers) (q_listed : q ∈ in_.peers) (same : p.clusterID = q.clusterID) :
    p = q := by
  obtain ⟨p_up, p_clear, p_cidrs⟩ := regular p p_listed
  obtain ⟨q_up, q_clear, q_cidrs⟩ := regular q q_listed
  cases p with
  | mk clusterID connected conflict cidrs =>
    cases q with
    | mk clusterID' connected' conflict' cidrs' =>
      subst same p_up p_clear q_up q_clear
      rw [p_cidrs] at q_cidrs
      cases q_cidrs
      rfl

/-- Denials are sound exactly when, for every peer and protected destination, the compiled rules
that let packets of the peer in include one that names a CIDR of the peer. -/
theorem denials_sound_iff (in_ : Input) (regular : in_.Regular) :
    in_.DenialsSound ↔ ∀ p ∈ in_.peers, ∀ dest, Guards in_.policies dest →
      (∃ key, Compiles in_.policies in_.clusterCIDRs key ∧ Opens key p.cidrs dest) →
        ∃ key, Compiles in_.policies in_.clusterCIDRs key ∧ Names key p.cidrs dest := by
  constructor
  · intro sound p listed dest guards
    rintro ⟨key, compiles, opens⟩
    obtain ⟨connected, clear, -⟩ := regular p listed
    by_contra unnamed
    have denied := mt (peerAllowed_iff guards).mp unnamed
    rw [Bool.not_eq_true] at denied
    obtain ⟨packet, enters, matched⟩ := (exists_packet_iff compiles.formed guards.keeps).mpr opens
    have dropped := sound (.stable Unit) (in_.report p) (mem_plan.mpr ⟨p, listed, rfl⟩) p listed
      (reachFor_cluster _ _ _) _ ((mem_dests_report connected clear).mpr ⟨dest, guards, rfl⟩)
      (.inl denied) packet enters
    rw [(permits_iff_of_enters guards enters).mpr ⟨key, compiles, matched⟩] at dropped
    cases dropped
  · intro named go row in_rows p listed same d mem denied packet enters
    obtain ⟨q, q_listed, rfl⟩ := mem_plan.mp in_rows
    obtain rfl : q = p := regular.eq_of_clusterID q_listed listed
      ((reachFor_cluster _ _ _).symm.trans same)
    obtain ⟨connected, clear, -⟩ := regular q listed
    have refused : d.allowed = false :=
      denied.elim id fun blocked => denied_of_blocked blocked mem
    obtain ⟨dest, guards, rfl⟩ := (mem_dests_report connected clear).mp mem
    rw [← Bool.not_eq_true]
    intro permitted
    obtain ⟨key, compiles, matched⟩ := (permits_iff_of_enters guards enters).mp permitted
    have opens := (exists_packet_iff compiles.formed guards.keeps).mp ⟨packet, enters, matched⟩
    rw [(peerAllowed_iff guards).mpr (named q listed dest guards ⟨key, compiles, opens⟩)] at refused
    cases refused

/-- Two remote clusters, of which only `cluster-b` may query the database. -/
def databaseInput : Input where
  peers := [⟨"cluster-b", true, false, ["10.40.0.0/16"]⟩,
    ⟨"cluster-c", true, false, ["10.41.0.0/16"]⟩]
  policies := [databasePolicy]
  clusterCIDRs id :=
    if id = "cluster-b" then ["10.40.0.0/16"]
    else if id = "cluster-c" then ["10.41.0.0/16"] else []

/-- The combination of the database. -/
def databaseKey : AcceptKey :=
  ⟨"10.40.0.0/16", "10.96.5.0/24", "tcp", "5432"⟩

theorem compiles_database (key : AcceptKey) :
    Compiles databaseInput.policies databaseInput.clusterCIDRs key ↔ key = databaseKey := by
  rw [compiles_iff, show (databaseInput.policies.foldl
    (FwBuilder.addPolicy databaseInput.clusterCIDRs) ⟨[], [], []⟩).accepts = [databaseKey] by
      decide +kernel, mem_singleton]

theorem guards_database (dest : Str) :
    Guards databaseInput.policies dest ↔ dest = "10.96.5.0/24" := by
  rw [guards_iff, show (databaseInput.policies.foldl
    (FwBuilder.addPolicy databaseInput.clusterCIDRs) ⟨[], [], []⟩).protectedDest =
      [str "10.96.5.0/24"] by decide +kernel, mem_singleton]

theorem denials_sound_database :
    databaseInput.Regular ∧ databaseInput.DenialsSound ∧
    ((plan (.stable Unit) databaseInput).reachabilities.map Reachability.status =
      [.reachable, .blocked]) := by
  have regular : databaseInput.Regular := by
    unfold Input.Regular
    decide
  refine ⟨regular, (denials_sound_iff databaseInput regular).mpr ?_, by decide +kernel⟩
  intro p listed dest guards
  obtain rfl := (guards_database dest).mp guards
  rintro ⟨key, compiles, ⟨cidr, in_cidrs, address, in_peer, in_source⟩, -⟩
  obtain rfl := (compiles_database key).mp compiles
  rcases mem_cons.mp listed with rfl | other
  · refine ⟨databaseKey, compiles, ?_⟩
    unfold Names AcceptKey.Legible
    decide
  · -- the ranges of the two clusters have no address in common
    obtain rfl := mem_singleton.mp other
    obtain rfl := mem_singleton.mp in_cidrs
    obtain ⟨left, left_eq, left_contains⟩ := in_peer
    obtain ⟨right, right_eq, right_contains⟩ := in_source
    have apart : ((parseNet "10.41.0.0/16").bind fun first =>
        (parseNet databaseKey.src).map (Topology.cidrsOverlap first)) = some false := by
      decide +kernel
    rw [left_eq, right_eq, Option.bind_some, Option.map_some,
      Topology.cidrsOverlap_of_contains left_contains right_contains] at apart
    cases apart

/-- A policy for one subnet of a cluster. -/
def subnetInput : Input where
  peers := [⟨"cluster-b", true, false, ["10.1.0.0/16"]⟩]
  policies := [⟨["10.96.5.0/24"], [⟨[⟨[], ["10.1.2.0/24"]⟩], []⟩]⟩]
  clusterCIDRs id := if id = "cluster-b" then ["10.1.0.0/16"] else []

/-- A peer is called blocked although the policy lets one of its subnets in. -/
theorem admitted_subnet_called_blocked :
    subnetInput.Regular ∧
    plan (.stable Unit) subnetInput = ⟨apiVersion, kind,
      [⟨"cluster-b", .blocked, blockedReason, [⟨"10.96.5.0/24", false⟩]⟩]⟩ ∧
    Enters ["10.1.0.0/16"] "10.96.5.0/24" ⟨0x0A010203, 0x0A600507, .tcp, 5432, .new⟩ ∧
    (buildFirewall subnetInput.policies subnetInput.clusterCIDRs).permits
      ⟨0x0A010203, 0x0A600507, .tcp, 5432, .new⟩ = true ∧
    ¬ subnetInput.DenialsSound := by
  have enters : Enters ["10.1.0.0/16"] "10.96.5.0/24"
      ⟨0x0A010203, 0x0A600507, .tcp, 5432, .new⟩ := by
    refine ⟨rfl, by decide, ⟨_, mem_singleton_self _, ?_⟩, .inr ?_⟩
    all_goals
      rw [← filter4_member_iff]
      decide +kernel
  have regular : subnetInput.Regular := by
    unfold Input.Regular
    decide
  refine ⟨regular, by decide +kernel, enters, by decide +kernel, fun sound => ?_⟩
  have dropped := sound (.stable Unit) ⟨"cluster-b", .blocked, blockedReason,
    [⟨"10.96.5.0/24", false⟩]⟩ (by decide +kernel) _ mem_cons_self rfl _
    (mem_singleton_self _) (.inl rfl) _ enters
  revert dropped
  decide +kernel

/-- Some packet can do what `Plan` allows, and nothing is dropped without protected destinations. -/
def Input.AllowancesRealizable (in_ : Input) (p : Peer) : Prop :=
  ∀ (go : Runtime Unit), ∃ row ∈ (plan go in_).reachabilities, row = in_.report p ∧
    (∀ d ∈ row.dests, d.allowed = true → ∃ packet, Enters p.cidrs d.dest packet ∧
      accepted (buildFirewall in_.policies in_.clusterCIDRs) packet = true) ∧
    (row.status = .reachable → row.dests = [] →
      ∀ packet, (buildFirewall in_.policies in_.clusterCIDRs).permits packet = true)

/-- Allowances are realizable exactly when, for every protected destination, the compiled rules that
name a CIDR of the peer include one that lets packets of the peer in. -/
theorem allowances_realizable_iff (in_ : Input) (p : Peer) (listed : p ∈ in_.peers)
    (connected : p.connected = true) (clear : p.conflict = false) :
    in_.AllowancesRealizable p ↔ ∀ dest, Guards in_.policies dest →
      (∃ key, Compiles in_.policies in_.clusterCIDRs key ∧ Names key p.cidrs dest) →
        ∃ key, Compiles in_.policies in_.clusterCIDRs key ∧ Opens key p.cidrs dest := by
  constructor
  · intro realizable dest guards named
    obtain ⟨row, -, rfl, allowed, -⟩ := realizable (.stable Unit)
    obtain ⟨packet, enters, accepts⟩ :=
      allowed _ ((mem_dests_report connected clear).mpr ⟨dest, guards, rfl⟩)
        ((peerAllowed_iff guards).mpr named)
    obtain ⟨key, compiles, matched⟩ := (accepted_iff enters.is_new).mp accepts
    exact ⟨key, compiles,
      (exists_packet_iff compiles.formed guards.keeps).mp ⟨packet, enters, matched⟩⟩
  · intro opened go
    refine ⟨_, mem_plan.mpr ⟨p, listed, rfl⟩, rfl, fun d mem allowed => ?_, ?_⟩
    · obtain ⟨dest, guards, rfl⟩ := (mem_dests_report connected clear).mp mem
      obtain ⟨key, compiles, opens⟩ := opened dest guards ((peerAllowed_iff guards).mp allowed)
      obtain ⟨packet, enters, matched⟩ := (exists_packet_iff compiles.formed guards.keeps).mpr opens
      exact ⟨packet, enters, (accepted_iff enters.is_new).mpr ⟨key, compiles, matched⟩⟩
    · intro reachable no_dests
      have nothing := protected_of_no_dests reachable no_dests
      refine permits_of_unguarded fun dest guards => ?_
      have mem : dest ∈ dedupeSorted
          (interpret (buildFirewall in_.policies in_.clusterCIDRs)).protected_ :=
        mem_dedupeSorted.mpr (mem_protected_buildFirewall.mpr guards)
      rw [nothing] at mem
      cases mem

theorem allowances_realizable_database :
    ∃ p ∈ databaseInput.peers, p.connected = true ∧ p.conflict = false ∧
      ipv4.reads "10.40.0.0/16" = true ∧ str "10.40.0.0/16" ∈ p.cidrs ∧
      databaseInput.AllowancesRealizable p := by
  refine ⟨_, mem_cons_self, rfl, rfl, by decide +kernel, mem_singleton_self _, ?_⟩
  refine (allowances_realizable_iff databaseInput _ mem_cons_self rfl rfl).mpr ?_
  intro dest guards _
  obtain rfl := (guards_database dest).mp guards
  refine ⟨databaseKey, (compiles_database _).mpr rfl,
    ⟨_, mem_singleton_self _, 0x0A280102, ?_, ?_⟩, ⟨0x0A600507, ?_, ?_⟩,
    .inr ⟨⟨.tcp, rfl⟩, .inr ⟨5432, by decide, by decide⟩⟩⟩
  · rw [← filter4_member_iff]
    decide +kernel
  · rw [← filter4_member_iff]
    decide +kernel
  · decide +kernel
  · decide +kernel

/-- A cluster that advertises an IPv6 network around a mapped address, and a policy for it. -/
def mappedInput : Input where
  peers := [⟨"cluster-b", true, false, ["10.0.0.0/8", "::ffff:10.9.0.1/64"]⟩]
  policies := [⟨["10.96.5.0/24"], [⟨[⟨[], ["::ffff:10.9.0.1/64"]⟩], []⟩]⟩]
  clusterCIDRs id :=
    if id = "cluster-b" then ["10.0.0.0/8", "::ffff:10.9.0.1/64"] else []

theorem not_inCIDR_mapped (address : BitVec 32) : ¬ InCIDR "::ffff:10.9.0.1/64" address := by
  rintro ⟨net, net_eq, contains⟩
  obtain ⟨block, view, -⟩ := (net.contains_four address).mp contains
  have none_four : ((parseNet "::ffff:10.9.0.1/64").bind IPNet.block4) = none := by
    decide +kernel
  rw [net_eq, Option.bind_some, view] at none_four
  cases none_four

theorem not_matchesPacket_mappedInput {key : AcceptKey}
    (compiles : Compiles mappedInput.policies mappedInput.clusterCIDRs key)
    (packet : Packet (BitVec 32)) : key.matchesPacket packet ≠ true := by
  intro matched
  rw [AcceptKey.matchesPacket, Bool.and_eq_true] at matched
  have inside := (matchesAddress_of_keeps compiles.formed.src _).mp matched.1
  have accepts_eq : (mappedInput.policies.foldl
      (FwBuilder.addPolicy mappedInput.clusterCIDRs) ⟨[], [], []⟩).accepts =
        [⟨"::ffff:10.9.0.1/64", "10.96.5.0/24", [], []⟩] := by decide +kernel
  rw [compiles_iff, accepts_eq, mem_singleton] at compiles
  rw [compiles] at inside
  exact not_inCIDR_mapped _ inside

/-- A peer is allowed to a destination that no IPv4 packet of it reaches. -/
theorem allowed_without_packets :
    plan (.stable Unit) mappedInput = ⟨apiVersion, kind,
      [⟨"cluster-b", .reachable, allReason, [⟨"10.96.5.0/24", true⟩]⟩]⟩ ∧
    (∀ packet, Enters ["10.0.0.0/8", "::ffff:10.9.0.1/64"] "10.96.5.0/24" packet →
      (buildFirewall mappedInput.policies mappedInput.clusterCIDRs).permits packet = false) ∧
    ∀ p ∈ mappedInput.peers, ¬ mappedInput.AllowancesRealizable p := by
  have guards : Guards mappedInput.policies "10.96.5.0/24" :=
    ⟨_, mem_singleton_self _, by decide +kernel⟩
  refine ⟨by decide +kernel, fun packet enters => ?_, fun p listed realizable => ?_⟩
  · rw [← Bool.not_eq_true]
    intro permitted
    obtain ⟨key, compiles, matched⟩ := (permits_iff_of_enters guards enters).mp permitted
    exact not_matchesPacket_mappedInput compiles packet matched
  · obtain rfl := mem_singleton.mp listed
    obtain ⟨row, -, rfl, allowed, -⟩ := realizable (.stable Unit)
    obtain ⟨packet, enters, accepts⟩ :=
      allowed ⟨"10.96.5.0/24", true⟩ (by decide +kernel) rfl
    obtain ⟨key, compiles, matched⟩ := (accepted_iff enters.is_new).mp accepts
    exact not_matchesPacket_mappedInput compiles packet matched

end DatawerxMesh.Reach
