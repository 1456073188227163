import DatawerxMesh.Controllers.PeerRoutes
import DatawerxMesh.Meshfw.Correctness

/-!
# Sources of a peer

The addresses under which a peer may appear: WireGuard admits what was passed to `ConfigurePeer`.
-/

namespace DatawerxMesh.Topology

open Go

/-- A CIDR is routed as it is: it is safe and overlaps no local range. -/
def RoutedAsIs (localCIDRs : List Str) (cidr : Str) : Prop :=
  ∃ remote, parseNet cidr = some remote ∧ isDangerousCIDR remote = false ∧
    ∀ localNet ∈ parseCIDRList localCIDRs, cidrsOverlap remote localNet = false

/-- A CIDR is withheld: it is dangerous or overlaps a local range. -/
def Withheld (localCIDRs : List Str) (cidr : Str) : Prop :=
  ∃ remote, parseNet cidr = some remote ∧ (isDangerousCIDR remote = true ∨
    ∃ localNet ∈ parseCIDRList localCIDRs, cidrsOverlap remote localNet = true)

theorem mem_conflicts_iff_withheld {desired localCIDRs : List Str} {cidr : Str}
    (parses : (parseNet cidr).isSome) :
    cidr ∈ (partition desired localCIDRs).2 ↔ cidr ∈ desired ∧ Withheld localCIDRs cidr := by
  obtain ⟨remote, parsed⟩ := Option.isSome_iff_exists.mp parses
  rw [partition_snd, List.mem_filter, Withheld, routableText, parsed]
  simp [overlapsAny_iff]

end DatawerxMesh.Topology

namespace DatawerxMesh.Controllers.MeshPeerReconciler

open Go Addressing Program Meshfw DatawerxMesh.Topology

/-- A withheld CIDR of a peer appears under a block of the pool. -/
def AppearsUnder (r : MeshPeerReconciler) (peer : MeshPeer) (virtual : Block 32) : Prop :=
  ∃ poolBlock, parseNet r.remapPool = some (.four poolBlock) ∧
    ∃ cidr ∈ peer.spec.allCIDRs, Withheld r.localCIDRs cidr ∧
      presentedBlock poolBlock peer.spec.clusterID cidr = some virtual

variable {r : MeshPeerReconciler} {peer : MeshPeer} {allowedIPs : List Str}

theorem parseNet_allowedIPs_iff (programmed : r.Programs peer allowedIPs) (net : IPNet) :
    (∃ text ∈ allowedIPs, parseNet text = some net) ↔
      (∃ cidr ∈ peer.spec.allCIDRs, RoutedAsIs r.localCIDRs cidr ∧ parseNet cidr = some net) ∨
        ∃ virtual, r.AppearsUnder peer virtual ∧ net = .four virtual := by
  constructor
  · rintro ⟨text, mem, parsed⟩
    rcases (mem_allowedIPs programmed text).mp mem with routable | ⟨cidr, conflict, allocated⟩
    · obtain ⟨in_spec, as_is⟩ := mem_routable_iff.mp routable
      exact Or.inl ⟨text, in_spec, as_is, parsed⟩
    · obtain ⟨poolBlock, block, pool_eq, presented, rfl⟩ :=
        presentedBlock_of_parseNet allocated parsed
      obtain ⟨in_spec, withheld⟩ :=
        (mem_conflicts_iff_withheld (isSome_of_virtualCIDR_ok allocated)).mp conflict
      exact Or.inr ⟨block, ⟨poolBlock, pool_eq, cidr, in_spec, withheld, presented⟩, rfl⟩
  · rintro (⟨cidr, in_spec, as_is, parsed⟩ | ⟨virtual, appears, rfl⟩)
    · exact ⟨cidr, (mem_allowedIPs programmed cidr).mpr (Or.inl (mem_routable_iff.mpr
        ⟨in_spec, as_is⟩)), parsed⟩
    · obtain ⟨poolBlock, pool_eq, cidr, in_spec, withheld, presented⟩ := appears
      have allocated : virtualCIDR r.remapPool peer.spec.clusterID cidr = .ok (blockText virtual) :=
        (virtualCIDR_eq_ok pool_eq).mpr ⟨virtual, presented, rfl⟩
      have conflict : cidr ∈ r.conflicts peer :=
        (mem_conflicts_iff_withheld (isSome_of_virtualCIDR_ok allocated)).mpr ⟨in_spec, withheld⟩
      exact ⟨blockText virtual, (mem_allowedIPs programmed _).mpr
        (Or.inr ⟨cidr, conflict, allocated⟩), parseNet_blockText virtual⟩

theorem inCIDR_allowedIPs_iff (programmed : r.Programs peer allowedIPs) (address : BitVec 32) :
    (∃ text ∈ allowedIPs, InCIDR text address) ↔
      (∃ cidr ∈ peer.spec.allCIDRs, RoutedAsIs r.localCIDRs cidr ∧ InCIDR cidr address) ∨
        ∃ virtual, r.AppearsUnder peer virtual ∧ virtual.contains address = true := by
  have nets := parseNet_allowedIPs_iff programmed
  constructor
  · rintro ⟨text, mem, net, parsed, contains⟩
    rcases (nets net).mp ⟨text, mem, parsed⟩ with
      ⟨cidr, in_spec, as_is, cidr_eq⟩ | ⟨virtual, appears, rfl⟩
    · exact Or.inl ⟨cidr, in_spec, as_is, net, cidr_eq, contains⟩
    · exact Or.inr ⟨virtual, appears, contains⟩
  · rintro (⟨cidr, in_spec, as_is, net, parsed, contains⟩ | ⟨virtual, appears, contains⟩)
    · obtain ⟨text, mem, text_eq⟩ := (nets net).mpr (Or.inl ⟨cidr, in_spec, as_is, parsed⟩)
      exact ⟨text, mem, net, text_eq, contains⟩
    · obtain ⟨text, mem, text_eq⟩ := (nets _).mpr (Or.inr ⟨virtual, appears, rfl⟩)
      exact ⟨text, mem, _, text_eq, contains⟩

end DatawerxMesh.Controllers.MeshPeerReconciler
