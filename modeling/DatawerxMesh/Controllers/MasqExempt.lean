import DatawerxMesh.Controllers.Presented
import DatawerxMesh.NatPlane.HookOrder

/-!
# The masquerade exemption beside the other POSTROUTING chains

`pkg/controllers/masqexempt_controller.go` beside the remap and gateway syncs of one agent: a packet
that the exemption and the remap match is decided by the chain that is hooked last.
-/

namespace DatawerxMesh.Controllers

open Go Addressing Program DatawerxMesh.Topology NatPlane Netfilter Scheduling List

/-- `MasqExemptReconciler`, as far as planning reads it. -/
structure MasqExemptReconciler where
  localCIDRs : List Str

/-- The remote ranges that are routed as they are. -/
def MasqExemptReconciler.routedRemoteCIDRs (r : MasqExemptReconciler) (peers : List MeshPeer) :
    List Str :=
  (peers.flatMap fun peer =>
    if peer.spec.publicKey = [] then []
    else (partition peer.spec.allCIDRs r.localCIDRs).1).eraseDups

theorem MasqExemptReconciler.mem_routedRemoteCIDRs {r : MasqExemptReconciler}
    {peers : List MeshPeer} {cidr : Str} :
    cidr ∈ r.routedRemoteCIDRs peers ↔
      ∃ peer ∈ peers, peer.spec.publicKey ≠ [] ∧ cidr ∈ peer.spec.allCIDRs ∧
        ∃ remote, parseNet cidr = some remote ∧ isDangerousCIDR remote = false ∧
          ∀ net ∈ parseCIDRList r.localCIDRs, cidrsOverlap remote net = false := by
  rw [routedRemoteCIDRs, mem_eraseDups, mem_flatMap]
  refine exists_congr fun peer => and_congr_right fun _ => ?_
  split
  · rename_i keyless
    simp [keyless]
  · rename_i keyed
    rw [mem_routable_iff, and_iff_right keyed]

namespace RemapReconciler

variable (r : RemapReconciler)

/-- What the controllers of one agent pass to the nat manager. -/
def syncArgs (peers : List MeshPeer) (entries : List RemapEntry)
    (clientCIDRs destCIDRs : List Str) :
    SyncArgs where
  entries := entries
  locals := r.localCIDRs
  remotes := MasqExemptReconciler.routedRemoteCIDRs ⟨r.localCIDRs⟩ peers
  clientCIDRs := clientCIDRs
  destCIDRs := destCIDRs

/-- Some peer with a key advertises a dotted CIDR that is routed as it is. -/
def RoutesDirectly (peers : List MeshPeer) : Prop :=
  ∃ peer ∈ peers, peer.spec.publicKey ≠ [] ∧ ∃ cidr ∈ peer.spec.allCIDRs, ∃ block,
    parseNet cidr = some (.four block) ∧ isDangerousCIDR (.four block) = false ∧
      ∀ net ∈ parseCIDRList r.localCIDRs, cidrsOverlap (.four block) net = false

/-- No address lies in a local CIDR and in a client CIDR. -/
def ClientsApart (clientCIDRs : List Str) : Prop :=
  ∀ localNet ∈ parseCIDRList r.localCIDRs, ∀ clientNet ∈ parseCIDRList clientCIDRs,
    ∀ address, localNet.holds address → ¬ clientNet.holds address

/-- No address of a dotted local CIDR lies in a range that is presented under another one. -/
def LocalsUnmoved (peers : List MeshPeer) : Prop :=
  ∀ cidr ∈ r.localCIDRs, ∀ block, parseNet cidr = some (.four block) →
    ∀ address, block.contains address = true → ∀ real virtual,
      r.FirstPresented peers address real virtual → virtual = real

end RemapReconciler

theorem mem_ofFamily {six : Bool} {cidrs : List Str} {cidr : Str} :
    cidr ∈ ofFamily six cidrs ↔ cidr ∈ cidrs ∧ isIPv6 cidr = six := by
  simp [ofFamily]

theorem isIPv6_of_dotted {cidr : Str} {block : Block 32}
    (parsed : parseNet cidr = some (.four block)) :
    isIPv6 cidr = false := by
  rw [isIPv6, ← Bool.not_eq_true, colon_of_parseNet parsed]
  rintro ⟨other, wrong⟩
  cases wrong

theorem ne_nil_of_parseNet {cidr : Str} {net : IPNet} (parsed : parseNet cidr = some net) :
    cidr ≠ [] := by
  rintro rfl
  cases parsed

theorem entriesOf_built {r : RemapReconciler} {peers : List MeshPeer} {entries : List RemapEntry}
    (built : r.buildEntries peers = .ok entries) :
    entriesOf false entries = entries ∧ entriesOf true entries = [] := by
  have dotted : ∀ entry ∈ entries, isIPv6 entry.virtual = false := by
    intro entry mem
    obtain ⟨real, virtual, -, rfl⟩ := (RemapReconciler.mem_entries_iff built).mp mem
    exact no_colon_blockText virtual
  refine ⟨filter_eq_self.mpr fun entry mem => ?_, filter_eq_nil_iff.mpr fun entry mem => ?_⟩
  · rw [dotted entry mem]
    rfl
  · rw [dotted entry mem]
    decide

section Agreement

variable {r : RemapReconciler} {peers : List MeshPeer} {entries : List RemapEntry}
  {clientCIDRs destCIDRs : List Str}

theorem RemapReconciler.ClientsApart.not_member (apart : r.ClientsApart clientCIDRs)
    {localNet : IPNet} (in_locals : localNet ∈ parseCIDRList r.localCIDRs) {block : Block 32}
    (view : localNet.block4 = some block) {address : BitVec 32}
    (contains : block.contains address = true) {client : Str} (in_clients : client ∈ clientCIDRs) :
    ipv4.member client address = false := by
  rw [← Bool.not_eq_true, ipv4_member_iff]
  rintro ⟨clientBlock, parsed, client_contains⟩
  exact apart localNet in_locals (.four clientBlock)
    (mem_parseCIDRList.mpr ⟨client, in_clients, parsed⟩)
    (mapped address) (IPNet.holds_mapped view contains) ⟨address, rfl, client_contains⟩

/-- Nothing is remapped in the IPv6 table. -/
theorem agree_ipv6 (built : r.buildEntries peers = .ok entries) (apart : r.ClientsApart clientCIDRs)
    (packet : Packet (BitVec 128)) :
    Agree
      (((r.syncArgs peers entries clientCIDRs destCIDRs).ofFamily true).decision ipv6 packet) := by
  have no_remap :
      ((r.syncArgs peers entries clientCIDRs destCIDRs).ofFamily true).decision ipv6 packet
      .remap = none := by
    rw [SyncArgs.decision, SyncArgs.content]
    change evalRules ipv6 _ _ (chainArgs remapPostChain
      (buildRemapRules (entriesOf true entries))) _ = _
    rw [(entriesOf_built built).2]
    rfl
  rw [agree_iff, no_remap]
  refine ⟨by simp, by simp, fun first second exempt masqueraded => ?_⟩
  obtain ⟨-, source, in_locals, -, -, -, -, -, source_matched, -⟩ := decision_noMasq.mp exempt
  obtain ⟨-, client, in_clients, -, -, -, -, -, client_matched, -⟩ :=
    decision_gateway.mp masqueraded
  obtain ⟨localBlock, local_parsed, local_contains⟩ := ipv6_member_iff.mp source_matched
  obtain ⟨clientBlock, client_parsed, client_contains⟩ := ipv6_member_iff.mp client_matched
  exact absurd client_contains (apart (.sixteen localBlock)
    (mem_parseCIDRList.mpr ⟨source, (mem_ofFamily.mp in_locals).1, local_parsed⟩)
    (.sixteen clientBlock)
    (mem_parseCIDRList.mpr ⟨client, (mem_ofFamily.mp in_clients).1, client_parsed⟩)
    packet.source local_contains)

theorem exempt_iff {packet : Packet (BitVec 32)} {decision : Decision (BitVec 32)} :
    ((r.syncArgs peers entries clientCIDRs destCIDRs).ofFamily false).decision ipv4 packet .noMasq =
        some decision ↔
      decision = .accept packet.source ∧
        (∃ cidr ∈ r.localCIDRs, ∃ block, parseNet cidr = some (.four block) ∧
          block.contains packet.source = true) ∧
        ∃ peer ∈ peers, peer.spec.publicKey ≠ [] ∧ ∃ cidr ∈ peer.spec.allCIDRs, ∃ block,
          parseNet cidr = some (.four block) ∧ isDangerousCIDR (.four block) = false ∧
            (∀ net ∈ parseCIDRList r.localCIDRs, cidrsOverlap (.four block) net = false) ∧
            block.contains packet.destination = true := by
  refine decision_noMasq.trans (and_congr_right fun _ => ?_)
  constructor
  · rintro ⟨source, in_locals, destination, in_remotes, -, -, -, source_matched,
      destination_matched⟩
    obtain ⟨block, parsed, contains⟩ := ipv4_member_iff.mp source_matched
    obtain ⟨remote, remote_parsed, remote_contains⟩ := ipv4_member_iff.mp destination_matched
    obtain ⟨peer, in_peers, keyed, in_spec, net, net_parsed, safe, disjoint⟩ :=
      MasqExemptReconciler.mem_routedRemoteCIDRs.mp (mem_ofFamily.mp in_remotes).1
    obtain rfl := Option.some.inj (remote_parsed.symm.trans net_parsed)
    exact ⟨⟨source, (mem_ofFamily.mp in_locals).1, block, parsed, contains⟩, peer, in_peers, keyed,
      destination, in_spec, remote, remote_parsed, safe, disjoint, remote_contains⟩
  · rintro ⟨⟨source, in_locals, block, parsed, contains⟩, peer, in_peers, keyed, destination,
      in_spec, remote, remote_parsed, safe, disjoint, remote_contains⟩
    have source_four := isIPv6_of_dotted parsed
    have remote_four := isIPv6_of_dotted remote_parsed
    exact ⟨source, mem_ofFamily.mpr ⟨in_locals, source_four⟩, destination,
      mem_ofFamily.mpr ⟨MasqExemptReconciler.mem_routedRemoteCIDRs.mpr ⟨peer, in_peers, keyed,
        in_spec, .four remote, remote_parsed, safe, disjoint⟩, remote_four⟩,
      ne_nil_of_parseNet parsed, ne_nil_of_parseNet remote_parsed,
      source_four.trans remote_four.symm,
      ipv4_member_iff.mpr ⟨block, parsed, contains⟩,
      ipv4_member_iff.mpr ⟨remote, remote_parsed, remote_contains⟩⟩

theorem remapped_iff (built : r.buildEntries peers = .ok entries) {packet : Packet (BitVec 32)}
    {decision : Decision (BitVec 32)} :
    ((r.syncArgs peers entries clientCIDRs destCIDRs).ofFamily false).decision ipv4 packet .remap =
        some decision ↔
      ∃ real virtual, r.FirstPresented peers packet.source real virtual ∧
        decision = .accept (virtual.renumber packet.source) := by
  have entries_eq : ((r.syncArgs peers entries clientCIDRs destCIDRs).ofFamily false).entries =
      entries := (entriesOf_built built).1
  rw [decision_remap, entries_eq, Option.map_eq_some_iff]
  simp only [RemapReconciler.firstMatch_iff_presented built]
  constructor
  · rintro ⟨image, ⟨real, virtual, first, rfl⟩, rfl⟩
    exact ⟨real, virtual, first, rfl⟩
  · rintro ⟨real, virtual, first, rfl⟩
    exact ⟨_, ⟨real, virtual, first, rfl⟩, rfl⟩

/-- The IPv4 chains agree when nothing is exempted or no local address is moved. -/
theorem agree_ipv4_iff (built : r.buildEntries peers = .ok entries)
    (apart : r.ClientsApart clientCIDRs) :
    (∀ packet, Agree (((r.syncArgs peers entries clientCIDRs destCIDRs).ofFamily false).decision
      ipv4 packet)) ↔ ¬ r.RoutesDirectly peers ∨ r.LocalsUnmoved peers := by
  constructor
  · intro agree
    by_cases direct : r.RoutesDirectly peers
    · refine Or.inr fun cidr in_locals block parsed address contains real virtual first => ?_
      obtain ⟨peer, in_peers, keyed, remoteCIDR, in_spec, remote, remote_parsed, safe, disjoint⟩ :=
        direct
      have equal := agree ⟨address, remote.base, .tcp, 0, .new⟩ .remap .noMasq
        (.accept (virtual.renumber address)) (.accept address)
        ((remapped_iff built).mpr ⟨real, virtual, first, rfl⟩)
        (exempt_iff.mpr ⟨rfl, ⟨cidr, in_locals, block, parsed, contains⟩, peer, in_peers, keyed,
          remoteCIDR, in_spec, remote, remote_parsed, safe, disjoint, remote.contains_base⟩)
      exact (Block.renumber_eq_self_iff first.1.same_len first.2.1).mp (Decision.accept.inj equal)
    · exact Or.inl direct
  · intro either packet
    refine agree_iff.mpr ⟨fun first second remapped exempt => ?_,
      fun first second remapped masqueraded => ?_, fun first second exempt masqueraded => ?_⟩
    · obtain ⟨real, virtual, presented, rfl⟩ := (remapped_iff built).mp remapped
      obtain ⟨rfl, ⟨cidr, in_locals, block, parsed, contains⟩, peer, in_peers, keyed, remoteCIDR,
        in_spec, remote, remote_parsed, safe, disjoint, -⟩ := exempt_iff.mp exempt
      rcases either with none_direct | unmoved
      · exact absurd ⟨peer, in_peers, keyed, remoteCIDR, in_spec, remote, remote_parsed, safe,
          disjoint⟩ none_direct
      · rw [unmoved cidr in_locals block parsed _ contains real virtual presented,
          Block.renumber_of_contains real presented.2.1]
    · obtain ⟨real, virtual, ⟨⟨-, -, -, -, -, -, -, -, -, localNet, in_locals, -, view⟩,
        contains, -⟩, -⟩ := (remapped_iff built).mp remapped
      obtain ⟨-, client, in_clients, -, -, -, -, -, matched, -⟩ := decision_gateway.mp masqueraded
      rw [apart.not_member in_locals view contains (mem_ofFamily.mp in_clients).1] at matched
      cases matched
    · obtain ⟨-, ⟨cidr, in_locals, block, parsed, contains⟩, -⟩ := exempt_iff.mp exempt
      obtain ⟨-, client, in_clients, -, -, -, -, -, matched, -⟩ := decision_gateway.mp masqueraded
      rw [apart.not_member (mem_parseCIDRList.mpr ⟨cidr, in_locals, parsed⟩)
        (IPNet.block4_four block) contains (mem_ofFamily.mp in_clients).1] at matched
      cases matched

end Agreement

/-- POSTROUTING decides alike in every order of first runs exactly when no peer is routed directly,
or when no address of a dotted local CIDR is moved by the remap. -/
theorem postrouting_order_free_iff (r : RemapReconciler) (peers : List MeshPeer)
    (entries : List RemapEntry) (clientCIDRs destCIDRs : List Str) (m : Manager)
    (built : r.buildEntries peers = .ok entries) (apart : r.ClientsApart clientCIDRs)
    (fresh : m.Fresh)
    (succeeds : ∃ after,
      m.runSyncs (r.syncArgs peers entries clientCIDRs destCIDRs) Sync.all = .ok after) :
    m.OrderFree (r.syncArgs peers entries clientCIDRs destCIDRs) ↔
      ¬ r.RoutesDirectly peers ∨ r.LocalsUnmoved peers := by
  rw [Manager.orderFree_iff fresh succeeds, agree_ipv4_iff built apart]
  exact and_iff_left fun _ => agree_ipv6 built apart

theorem clientsApart_of_dotted {r : RemapReconciler} {clientCIDRs : List Str}
    (disjoint : ∀ localNet ∈ parseCIDRList r.localCIDRs, ∀ clientNet ∈ parseCIDRList clientCIDRs,
      ∃ left right, localNet = .four left ∧ clientNet = .four right ∧ left.Disjoint right) :
    r.ClientsApart clientCIDRs := by
  intro localNet in_locals clientNet in_clients address
  obtain ⟨left, right, rfl, rfl, disjoint⟩ := disjoint localNet in_locals clientNet in_clients
  rintro ⟨low, rfl, left_contains⟩ ⟨other, same, right_contains⟩
  have low_eq : some low = some other := by rw [← unmap_mapped low, same, unmap_mapped]
  obtain rfl := Option.some.inj low_eq
  exact disjoint low ⟨left_contains, right_contains⟩

/-- A peer with one overlapping and one free pod range. -/
def mixedPeer : MeshPeer := peerOf "cluster-b" ["10.244.0.0/16", "10.245.0.0/16"]

/-- What the agent of that cluster passes to the nat manager; clients use 100.64.0.0/10. -/
def mixedArgs : SyncArgs :=
  clusterA.syncArgs [mixedPeer] [⟨"10.244.0.0/16", "172.18.0.0/16"⟩] ["100.64.0.0/10"]
    ["10.245.0.0/16"]

/-- A manager with empty built-in chains in both tables. -/
def emptyManager : Manager where
  ipt := ⟨[preroutingChain, postroutingChain], fun _ => []⟩
  ipt6 := some ⟨[preroutingChain, postroutingChain], fun _ => []⟩

theorem emptyManager_fresh : emptyManager.Fresh := by
  have fresh : FreshTable ⟨[preroutingChain, postroutingChain], fun _ => []⟩ :=
    ⟨⟨by decide, by decide⟩, by decide, fun _ => not_mem_nil⟩
  refine ⟨fresh, fun table table_eq => ?_⟩
  obtain rfl := Option.some.inj table_eq
  exact fresh

theorem postrouting_order_free_iff_mixed :
    emptyManager.OrderFree mixedArgs ↔
      ¬ clusterA.RoutesDirectly [mixedPeer] ∨ clusterA.LocalsUnmoved [mixedPeer] := by
  refine postrouting_order_free_iff clusterA [mixedPeer] _ _ _ emptyManager (by decide +kernel)
    (clientsApart_of_dotted ?_) emptyManager_fresh
    (Outcome.isOk_iff.mp (by decide +kernel))
  have blocks : ∃ left right, parseCIDRList clusterA.localCIDRs = [.four left] ∧
      parseCIDRList ["100.64.0.0/10"] = [.four right] ∧ left.overlaps right = false :=
    ⟨Block.around 0x0AF40000#32 16 (by decide), Block.around 0x64400000#32 10 (by decide),
      by decide +kernel, by decide +kernel, by decide +kernel⟩
  obtain ⟨left, right, left_eq, right_eq, apart⟩ := blocks
  rw [left_eq, right_eq]
  simp only [mem_singleton, forall_eq]
  exact ⟨left, right, rfl, rfl, (Block.disjoint_iff_not_overlaps left right).mpr apart⟩

/-- A packet from a pod to the free range keeps its source when the exemption is hooked last and is
translated when the remap chain is. -/
theorem postrouting_depends_on_order :
    clusterA.buildEntries [mixedPeer] = .ok mixedArgs.entries ∧
      (emptyManager.runSyncs mixedArgs [.remap, .gateway, .noMasq]).isOk = true ∧
      (emptyManager.runSyncs mixedArgs [.noMasq, .gateway, .remap]).isOk = true ∧
      postrouting ipv4 (fun _ _ => none)
        ((emptyManager.runSyncs mixedArgs [.remap, .gateway, .noMasq]).getD emptyManager).ipt
        ⟨0x0AF40102#32, 0x0AF50009#32, .tcp, 80, .new⟩ = some (.accept 0x0AF40102#32) ∧
      postrouting ipv4 (fun _ _ => none)
        ((emptyManager.runSyncs mixedArgs [.noMasq, .gateway, .remap]).getD emptyManager).ipt
        ⟨0x0AF40102#32, 0x0AF50009#32, .tcp, 80, .new⟩ = some (.accept 0xAC120102#32) := by
  decide +kernel

end DatawerxMesh.Controllers
