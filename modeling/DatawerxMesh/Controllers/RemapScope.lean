import DatawerxMesh.Controllers.PeerRoutes
import DatawerxMesh.Controllers.Presented

/-!
# The scope of the outbound remap

The outbound rules match on the source alone, so a presented range is rewritten towards every
destination and not only towards the CIDRs that are routed into the mesh.
-/

namespace DatawerxMesh.Controllers

open Go Addressing Program DatawerxMesh.Topology NatPlane Netfilter

namespace MeshPeerReconciler

variable (r : MeshPeerReconciler)

/-- An address lies in a CIDR that is passed to `ConfigurePeer` for some peer. -/
def Configured (peers : List MeshPeer) (ip : IP) : Prop :=
  ∃ peer ∈ peers, ∃ allowedIPs, r.Programs peer allowedIPs ∧
    ∃ text ∈ allowedIPs, ∃ net, parseNet text = some net ∧ net.contains ip = true

/-- Packets towards other destinations leave the outbound chain with their source. -/
def ScopedToMesh (peers : List MeshPeer) (entries : List RemapEntry) : Prop :=
  (∀ packet : Packet (BitVec 32), ¬ r.Configured peers (.four packet.destination) →
    remapPost ipv4 entries packet = packet.source) ∧
  ∀ packet : Packet (BitVec 128), ¬ r.Configured peers (.sixteen packet.destination) →
    remapPost ipv6 entries packet = packet.source

/-- The address lies in a routed CIDR of a peer, or in the pool block of a withheld one, and the
pool has separate blocks for all that the peer needs. -/
def Reached (poolBlock : Block 32) (peers : List MeshPeer) (address : BitVec 32) : Prop :=
  ∃ peer ∈ peers, peer.spec.publicKey ≠ [] ∧ Separated poolBlock r.clusterID peer.spec.clusterID
      (placements (parseCIDRList r.localCIDRs) (r.conflicts peer)) ∧
    ((∃ cidr ∈ r.routable peer, ∃ net, parseNet cidr = some net ∧
        net.contains (.four address) = true) ∨
      ∃ cidr ∈ r.conflicts peer, ∃ image,
        presentedBlock poolBlock peer.spec.clusterID cidr = some image ∧
          image.contains address = true)

variable {r} {poolBlock : Block 32} (pool_eq : parseNet r.remapPool = some (.four poolBlock))

include pool_eq

theorem exists_programs_iff {peer : MeshPeer} :
    (∃ allowedIPs, r.Programs peer allowedIPs) ↔ peer.spec.publicKey ≠ [] ∧
      Separated poolBlock r.clusterID peer.spec.clusterID
        (placements (parseCIDRList r.localCIDRs) (r.conflicts peer)) := by
  have on : r.remapPool ≠ [] := by
    intro off
    rw [off] at pool_eq
    cases pool_eq
  simp only [programs_with_pool on, planRemap_eq_ok, placeable_iff_separated pool_eq]
  constructor
  · rintro ⟨_, keyed, _, ⟨separated, -⟩, -⟩
    exact ⟨keyed, separated⟩
  · rintro ⟨keyed, separated⟩
    exact ⟨_, keyed, _, ⟨separated, rfl⟩, rfl⟩

theorem configured_iff (peers : List MeshPeer) (address : BitVec 32) :
    r.Configured peers (.four address) ↔ r.Reached poolBlock peers address := by
  have allowed_iff : ∀ {peer allowedIPs}, r.Programs peer allowedIPs →
      ((∃ text ∈ allowedIPs, ∃ net, parseNet text = some net ∧
          net.contains (.four address) = true) ↔
        (∃ cidr ∈ r.routable peer, ∃ net, parseNet cidr = some net ∧
          net.contains (.four address) = true) ∨
        ∃ cidr ∈ r.conflicts peer, ∃ image,
          presentedBlock poolBlock peer.spec.clusterID cidr = some image ∧
            image.contains address = true) := by
    intro peer allowedIPs programmed
    simp only [mem_allowedIPs programmed, virtualCIDR_eq_ok pool_eq]
    constructor
    · rintro ⟨text, routed | ⟨cidr, withheld, image, presented, rfl⟩, net, parsed, contains⟩
      · exact Or.inl ⟨text, routed, net, parsed, contains⟩
      · rw [parseNet_blockText] at parsed
        cases parsed
        exact Or.inr ⟨cidr, withheld, image, presented, contains⟩
    · rintro (⟨text, routed, inside⟩ | ⟨cidr, withheld, image, presented, contains⟩)
      · exact ⟨text, Or.inl routed, inside⟩
      · exact ⟨blockText image, Or.inr ⟨cidr, withheld, image, presented, rfl⟩, .four image,
          parseNet_blockText image, contains⟩
  constructor
  · rintro ⟨peer, mem, allowedIPs, programmed, inside⟩
    obtain ⟨keyed, separated⟩ := (exists_programs_iff pool_eq).mp ⟨allowedIPs, programmed⟩
    exact ⟨peer, mem, keyed, separated, (allowed_iff programmed).mp inside⟩
  · rintro ⟨peer, mem, keyed, separated, inside⟩
    obtain ⟨allowedIPs, programmed⟩ := (exists_programs_iff pool_eq).mpr ⟨keyed, separated⟩
    exact ⟨peer, mem, allowedIPs, programmed, (allowed_iff programmed).mpr inside⟩

end MeshPeerReconciler

theorem remapPost_ipv6 {r : RemapReconciler} {peers : List MeshPeer} {entries : List RemapEntry}
    (built : r.buildEntries peers = .ok entries) (packet : Packet (BitVec 128)) :
    remapPost ipv6 entries packet = packet.source := by
  have undecided : evalRules ipv6 .postrouting noJump
      (chainArgs remapPostChain (buildRemapRules entries)) packet = none := by
    rw [chainArgs_post, evalRules, List.findSome?_eq_none_iff, List.forall_mem_map]
    intro entry mem
    obtain ⟨real, virtual, -, rfl⟩ :=
      (RemapReconciler.mem_entries_iff built).mp (mem_remapOrder.mp mem).1
    rw [postArgs, evalRule_netmap_source, if_neg]
    simp [ipv6]
  rw [remapPost, undecided]
  rfl

/-- The outbound remap is scoped to the mesh exactly when the peers between them reach every IPv4
address, or when no address lies in a range that is presented under another one. -/
theorem remap_scoped_iff (r : MeshPeerReconciler) (peers : List MeshPeer)
    (entries : List RemapEntry)
    (built : r.remap.buildEntries peers = .ok entries) :
    r.ScopedToMesh peers entries ↔
      (∃ poolBlock, parseNet r.remapPool = some (.four poolBlock) ∧
        ∀ destination, r.Reached poolBlock peers destination) ∨
      ∀ address real virtual, r.remap.FirstPresented peers address real virtual →
        virtual = real := by
  have kept_iff : ∀ packet : Packet (BitVec 32), remapPost ipv4 entries packet = packet.source ↔
      ∀ real virtual, r.remap.FirstPresented peers packet.source real virtual → virtual = real := by
    intro packet
    rw [← RemapReconciler.unmoved_iff built]
    change postSource entries packet = packet.source ↔ _
    rw [postSource_eq]
    cases firstMatch (postPairs entries) packet.source <;> simp
  constructor
  · rintro ⟨keeps, -⟩
    refine or_iff_not_imp_right.mpr fun moved => ?_
    -- A range that is presented at all is presented in a block of a dotted pool.
    obtain ⟨address, moved⟩ := not_forall.mp moved
    obtain ⟨poolBlock, pool_eq⟩ : DottedCIDR r.remapPool := by
      by_contra not_dotted
      refine moved fun real virtual first => ?_
      obtain ⟨⟨⟨poolBlock, pool_eq, -⟩, -⟩, -⟩ := first
      exact absurd ⟨poolBlock, pool_eq⟩ not_dotted
    refine ⟨poolBlock, pool_eq, fun destination => ?_⟩
    rw [← MeshPeerReconciler.configured_iff pool_eq]
    by_contra outside
    exact moved ((kept_iff ⟨address, destination, .tcp, 0, .new⟩).mp (keeps _ outside))
  · intro either
    refine ⟨fun packet outside => ?_, fun packet _ => remapPost_ipv6 built packet⟩
    rcases either with ⟨poolBlock, pool_eq, all⟩ | same
    · exact absurd ((MeshPeerReconciler.configured_iff pool_eq peers _).mpr (all _)) outside
    · exact (kept_iff packet).mpr (same packet.source)

theorem remap_scoped_iff_agentA :
    agentA.ScopedToMesh [peerOf "cluster-b" ["10.244.0.0/16"]]
        [⟨"10.244.0.0/16", "172.18.0.0/16"⟩] ↔
      (∃ poolBlock, parseNet agentA.remapPool = some (.four poolBlock) ∧
        ∀ destination, agentA.Reached poolBlock
          [peerOf "cluster-b" ["10.244.0.0/16"]] destination) ∨
      ∀ address real virtual, agentA.remap.FirstPresented
        [peerOf "cluster-b" ["10.244.0.0/16"]] address real virtual → virtual = real :=
  remap_scoped_iff agentA _ _ (by decide +kernel)

/-- A pod that opens a connection to the internet leaves with a virtual source. -/
theorem internet_traffic_remapped :
    agentA.remap.buildEntries [peerOf "cluster-b" ["10.244.0.0/16"]] =
        .ok [⟨"10.244.0.0/16", "172.18.0.0/16"⟩] ∧
      ¬ agentA.Configured [peerOf "cluster-b" ["10.244.0.0/16"]] (.four 0x08080808#32) ∧
      postSource [⟨"10.244.0.0/16", "172.18.0.0/16"⟩]
        ⟨0x0AF40102#32, 0x08080808#32, .tcp, 443, .new⟩ = 0xAC120102#32 := by
  refine ⟨by decide +kernel, ?_, by decide +kernel⟩
  rintro ⟨peer, in_peers, allowedIPs, programmed, text, in_allowed, net, parsed, contains⟩
  rw [List.mem_singleton] at in_peers
  subst in_peers
  rw [MeshPeerReconciler.programs_with_pool (by decide)] at programmed
  obtain ⟨-, plan, planned, rfl⟩ := programmed
  have planned_eq : planRemap agentA.remapPool agentA.clusterID agentA.localCIDRs "cluster-b"
      (agentA.conflicts (peerOf "cluster-b" ["10.244.0.0/16"])) =
        .ok ⟨["172.19.0.0/16"], [⟨"10.244.0.0/16", "172.18.0.0/16"⟩]⟩ := by
    decide +kernel
  obtain rfl := Outcome.ok.inj (planned_eq.symm.trans planned)
  have allowed_eq : agentA.routable (peerOf "cluster-b" ["10.244.0.0/16"]) = [] := by
    decide +kernel
  rw [allowed_eq, List.nil_append, List.mem_singleton] at in_allowed
  subst in_allowed
  have outside : (parseNet "172.19.0.0/16").any (fun net =>
      net.contains (.four 0x08080808#32)) = false := by
    decide +kernel
  rw [parsed, Option.any_some, contains] at outside
  cases outside

end DatawerxMesh.Controllers
