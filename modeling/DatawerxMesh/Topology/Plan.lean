import DatawerxMesh.Api.Resources
import DatawerxMesh.Go.NetText

/-!
# Peer planning

`pkg/topology/plan.go`: which CIDRs of a peer are safe to route and which are withheld because they
overlap a local range, are dangerous or do not parse.
-/

namespace DatawerxMesh.Topology

open Go Addressing List

/-- `ParseCIDRList`, which drops what does not parse. -/
def parseCIDRList (cidrs : List Str) : List IPNet := cidrs.filterMap parseNet

/-- The network overlaps one of the list. -/
def overlapsAny (candidate : IPNet) (nets : List IPNet) : Bool :=
  nets.any fun net => net.contains candidate.ip || candidate.contains net.ip

/-- `dangerousNets`: loopback, link-local and multicast ranges of both families. -/
def dangerousNets : List IPNet :=
  parseCIDRList ["127.0.0.0/8", "::1/128", "169.254.0.0/16", "fe80::/10",
    "224.0.0.0/4", "ff00::/8"]

/-- `IsDangerousCIDR`: a default route, or an overlap with a built-in dangerous range. -/
def isDangerousCIDR (net : IPNet) : Bool := net.ones == 0 || overlapsAny net dangerousNets

/-- The text parses to a dangerous network. -/
def dangerousText (cidr : Str) : Bool := (parseNet cidr).any isDangerousCIDR

/-- The ranges that are never routed. -/
def dangerousCIDRs (cidrs : List Str) : List Str := cidrs.filter dangerousText

/-- The test in the loop of `Partition`. -/
def routableText (locals : List IPNet) (cidr : Str) : Bool :=
  match parseNet cidr with
  | none => false
  | some remote => !(isDangerousCIDR remote || overlapsAny remote locals)

/-- `Partition`: the routable and the conflicting CIDRs, each in the order of the input. -/
def partition (desired localCIDRs : List Str) : List Str × List Str :=
  desired.partition (routableText (parseCIDRList localCIDRs))

/-- What to program for a peer. -/
structure Plan where
  publicKey : Str
  endpoint : Str
  desiredCIDRs : List Str
  routableCIDRs : List Str
  conflictingCIDRs : List Str
  phase : MeshPeerPhase
  message : Str
  deriving DecidableEq

/-- The peer has a key. -/
def Plan.programmable (plan : Plan) : Bool := plan.publicKey != []

/-- Some range is withheld. -/
def Plan.hasConflicts (plan : Plan) : Bool := plan.conflictingCIDRs != []

/-- The plan for a peer. -/
def planPeer (spec : MeshPeerSpec) (localCIDRs : List Str) : Plan :=
  let desired := spec.allCIDRs
  if spec.publicKey = [] then
    { publicKey := [], endpoint := spec.endpoint, desiredCIDRs := desired, routableCIDRs := [],
      conflictingCIDRs := [], phase := .error, message := "spec.publicKey is required" }
  else
    let (routable, conflicts) := partition desired localCIDRs
    let dangerous := dangerousCIDRs desired
    let (phase, message) : MeshPeerPhase × Str :=
      if conflicts ≠ [] then
        if dangerous ≠ [] then
          (.error, "refusing to route dangerous ranges " ++ sprintSlice dangerous ++
            " (default/loopback/link-local/multicast are never steered into the mesh); unrouted: "
            ++ sprintSlice conflicts)
        else
          (.error, "CIDR overlap with local cluster requires NAT remap; unrouted: " ++
            sprintSlice conflicts)
      else
        (.connected, "peer programmed; " ++ itoa routable.length ++ "/" ++
          itoa desired.length ++ " CIDRs routed")
    { publicKey := spec.publicKey, endpoint := spec.endpoint, desiredCIDRs := desired,
      routableCIDRs := routable, conflictingCIDRs := conflicts, phase, message }

theorem partition_fst (desired localCIDRs : List Str) :
    (partition desired localCIDRs).1 =
      desired.filter (routableText (parseCIDRList localCIDRs)) := by
  rw [partition, partition_eq_filter_filter]

theorem partition_snd (desired localCIDRs : List Str) :
    (partition desired localCIDRs).2 =
      desired.filter fun cidr => !routableText (parseCIDRList localCIDRs) cidr := by
  rw [partition, partition_eq_filter_filter]
  rfl

/-- Two networks overlap as the planner tests it. -/
def cidrsOverlap (left right : IPNet) : Bool := left.contains right.ip || right.contains left.ip

theorem cidrsOverlap_comm (left right : IPNet) :
    cidrsOverlap left right = cidrsOverlap right left := by
  rw [cidrsOverlap, cidrsOverlap, Bool.or_comm]

theorem overlapsAny_iff (candidate : IPNet) (nets : List IPNet) :
    overlapsAny candidate nets = true ↔ ∃ net ∈ nets, cidrsOverlap candidate net = true := by
  rw [overlapsAny, any_eq_true]
  refine exists_congr fun net => and_congr_right fun _ => ?_
  rw [cidrsOverlap_comm, cidrsOverlap]

theorem cidrsOverlap_of_block4 {left right : IPNet} {leftBlock rightBlock : Block 32}
    (left_view : left.block4 = some leftBlock) (right_view : right.block4 = some rightBlock) :
    cidrsOverlap left right = leftBlock.overlaps rightBlock := by
  rw [cidrsOverlap, IPNet.contains_ip_of_block4 left_view right_view,
    IPNet.contains_ip_of_block4 right_view left_view, Block.overlaps]

theorem cidrsOverlap_of_high {left right : Block 128} (left_high : unmap left.base = none)
    (right_high : unmap right.base = none) :
    cidrsOverlap (.sixteen left) (.sixteen right) = left.overlaps right := by
  have base : ∀ {outer inner : Block 128}, unmap outer.base = none → unmap inner.base = none →
      (IPNet.sixteen outer).contains (IPNet.sixteen inner).ip = outer.contains inner.base := by
    intro outer inner outer_high inner_high
    simp [IPNet.contains, IPNet.number, IPNet.ip, IP.to4, outer_high, inner_high]
  rw [cidrsOverlap, base left_high right_high, base right_high left_high, Block.overlaps]

theorem cidrsOverlap_of_contains {left right : IPNet} {ip : IP} (in_left : left.contains ip = true)
    (in_right : right.contains ip = true) : cidrsOverlap left right = true := by
  cases four : ip.to4 with
  | some address =>
    have view : ∀ {net : IPNet}, net.contains ip = true →
        ∃ block, net.block4 = some block ∧ block.contains address = true := by
      intro net inside
      rw [← IPNet.contains_four]
      unfold IPNet.contains at inside ⊢
      rw [four] at inside
      cases number_eq : net.number <;> simp_all [IP.to4]
    obtain ⟨leftBlock, left_view, in_left_block⟩ := view in_left
    obtain ⟨rightBlock, right_view, in_right_block⟩ := view in_right
    rw [cidrsOverlap_of_block4 left_view right_view, Block.overlaps_iff]
    exact ⟨address, in_left_block, in_right_block⟩
  | none =>
    have view : ∀ {net : IPNet}, net.contains ip = true →
        ∃ address block, ip = .sixteen address ∧ net = .sixteen block ∧
          unmap block.base = none ∧ block.contains address = true := by
      intro net inside
      cases ip with
      | four address => cases four
      | sixteen address =>
        cases net with
        | four block => simp [IPNet.contains, IPNet.number, four] at inside
        | sixteen block =>
          cases base_eq : unmap block.base with
          | some low => simp [IPNet.contains, IPNet.number, four, base_eq] at inside
          | none =>
            refine ⟨address, block, rfl, rfl, base_eq, ?_⟩
            simpa [IPNet.contains, IPNet.number, four, base_eq] using inside
    obtain ⟨address, leftBlock, rfl, rfl, left_six, in_left_block⟩ := view in_left
    obtain ⟨_, rightBlock, same, rfl, right_six, in_right_block⟩ := view in_right
    obtain rfl := IP.sixteen.inj same
    rw [cidrsOverlap_of_high left_six right_six, Block.overlaps_iff]
    exact ⟨_, in_left_block, in_right_block⟩

theorem block4_of_cidrsOverlap {left right : IPNet} (overlap : cidrsOverlap left right = true) :
    left.block4.isSome = right.block4.isSome := by
  by_contra mixed
  rw [cidrsOverlap, IPNet.contains_ip_of_mixed mixed,
    IPNet.contains_ip_of_mixed (Ne.symm mixed)] at overlap
  cases overlap

theorem mem_parseCIDRList {cidrs : List Str} {net : IPNet} :
    net ∈ parseCIDRList cidrs ↔ ∃ cidr ∈ cidrs, parseNet cidr = some net :=
  mem_filterMap

theorem mem_conflicts_iff {desired localCIDRs : List Str} {cidr : Str} {remote : IPNet}
    (parsed : parseNet cidr = some remote) (safe : isDangerousCIDR remote = false) :
    cidr ∈ (partition desired localCIDRs).2 ↔
      cidr ∈ desired ∧ ∃ net ∈ parseCIDRList localCIDRs, cidrsOverlap remote net = true := by
  rw [partition_snd, mem_filter]
  refine and_congr_right fun _ => ?_
  rw [routableText, parsed, Bool.not_not, safe, Bool.false_or, overlapsAny_iff]

theorem mem_routable_iff {desired localCIDRs : List Str} {cidr : Str} :
    cidr ∈ (partition desired localCIDRs).1 ↔
      cidr ∈ desired ∧ ∃ remote, parseNet cidr = some remote ∧ isDangerousCIDR remote = false ∧
        ∀ net ∈ parseCIDRList localCIDRs, cidrsOverlap remote net = false := by
  rw [partition_fst, mem_filter]
  refine and_congr_right fun _ => ?_
  rw [routableText]
  cases parsed : parseNet cidr with
  | none => simp
  | some remote =>
    have none_overlaps : overlapsAny remote (parseCIDRList localCIDRs) = false ↔
        ∀ net ∈ parseCIDRList localCIDRs, cidrsOverlap remote net = false := by
      rw [← Bool.not_eq_true, overlapsAny_iff]
      simp
    simp [none_overlaps]

end DatawerxMesh.Topology
