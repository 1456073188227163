import DatawerxMesh.Library.Ownership
import DatawerxMesh.Topology.Plan

/-!
# Overlap remap planning

`pkg/topology/remap.go`: the virtual range of a real range, and the remap plan of one peer.
-/

namespace DatawerxMesh.Topology

open Go Addressing Program

/-- The pool used when none is set. -/
def defaultRemapPool : Str := "172.16.0.0/12"

/-- `Remap`: a local real range with its virtual range. -/
structure Remap where
  real : Str
  virtual : Str
  deriving DecidableEq

/-- The virtual routes, and the own ranges behind others. -/
structure RemapPlan where
  routeVirtual : List Str
  locals : List Remap
  deriving DecidableEq

/-- Why a range has no virtual one. -/
inductive VirtualError where
  | parsePool (pool : Str)
  | poolNotIPv4 (pool : Str)
  | parseReal (real : Str)
  | realNotIPv4 (real : Str)
  | tooLarge (real : Str) (realOnes : Nat) (pool : Str) (poolOnes : Nat)
  deriving DecidableEq

/-- The message of the parser. -/
def parseErrorText (text : Str) : Str := "invalid CIDR address: " ++ text

/-- Error texts of `VirtualCIDR`, with `%q` given by `quote`. -/
def VirtualError.text (quote : Str → Str) : VirtualError → Str
  | parsePool pool => "parsing remap pool " ++ quote pool ++ ": " ++ parseErrorText pool
  | poolNotIPv4 pool => "remap pool " ++ quote pool ++ " must be IPv4"
  | parseReal real => "parsing real CIDR " ++ quote real ++ ": " ++ parseErrorText real
  | realNotIPv4 real => "real CIDR " ++ quote real ++ " must be IPv4 to remap"
  | tooLarge real realOnes pool poolOnes =>
    "real CIDR " ++ quote real ++ " (/" ++ itoa realOnes ++
      ") is larger than the remap pool " ++ quote pool ++
      " (/" ++ itoa poolOnes ++ ")"

/-- `hash32`: 32-bit FNV-1a. -/
def hash32 (s : Str) : BitVec 32 :=
  s.foldl (fun hash byte => (hash ^^^ byte.toBitVec.setWidth 32) * 16777619#32) 2166136261#32

/-- A Go shift, which is zero from the operand width on. -/
def shl {w : Nat} (x : BitVec w) (count : Nat) : BitVec w := if w ≤ count then 0 else x <<< count

/-- `uint(32 - realOnes)`, which wraps for a 128-bit mask. -/
def blockBits (realOnes : Nat) : Nat := ((32 - (realOnes : Int)) % 2 ^ 64).toNat

/-- The hashed text of a range. -/
def hashKey (clusterID realCIDR : Str) : Str := clusterID ++ "|" ++ realCIDR

/-- Second half of `VirtualCIDR`, from the size check on.  A remainder by zero panics. -/
def allocateVirtual (pool clusterID realCIDR : Str) (poolBase : BitVec 32)
    (poolOnes realOnes : Nat) : Outcome VirtualError Str :=
  if realOnes < poolOnes then .err (.tooLarge realCIDR realOnes pool poolOnes)
  else
    let numBlocks := shl 1#64 (realOnes - poolOnes)
    if numBlocks = 0 then .panic
    else
      let index := (hash32 (hashKey clusterID realCIDR)).setWidth 64 % numBlocks
      let virtual := poolBase + shl (index.setWidth 32) (blockBits realOnes)
      .ok (dotted virtual ++ 47 :: itoa realOnes)

/-- The virtual range of a range. -/
def virtualCIDR (pool clusterID realCIDR : Str) : Outcome VirtualError Str :=
  match parseNet pool with
  | none => .err (.parsePool pool)
  | some poolNet =>
    match poolNet.ip.to4 with
    | none => .err (.poolNotIPv4 pool)
    | some poolBase =>
      match parseNet realCIDR with
      | none => .err (.parseReal realCIDR)
      | some realNet =>
        match realNet.ip.to4 with
        | none => .err (.realNotIPv4 realCIDR)
        | some _ =>
          allocateVirtual pool clusterID realCIDR poolBase poolNet.ones realNet.ones

/-- Why no plan is made. -/
inductive PlanError where
  | peer (peerClusterID cidr : Str) (error : VirtualError)
  | «local» (real : Str) (error : VirtualError)
  | collision (pool previous source virtual : Str)
  deriving DecidableEq

/-- The message of an error. -/
def PlanError.text (quote : Str → Str) : PlanError → Str
  | peer peerClusterID cidr error =>
    "allocating virtual CIDR for peer " ++ peerClusterID ++ " " ++ cidr ++ ": " ++
      error.text quote
  | «local» real error =>
    "allocating virtual CIDR for local " ++ real ++ ": " ++ error.text quote
  | collision pool previous source virtual =>
    "remap collision in pool " ++ pool ++ ": " ++ previous ++ " and " ++ source ++
      " both map to virtual " ++ virtual ++
      "; choose a larger remap pool or non-overlapping CIDRs"

/-- Owners of the virtual ranges claimed so far. -/
abbrev Owners := Ownership.Table Str Str

/-- The other maps that `PlanRemap` fills: the routed virtual ranges, and the local pairs by real
range. -/
structure RemapMaps where
  routeSet : List Str
  localSet : AList fun _ : Str => Remap

/-- The state of the loops of `PlanRemap`. -/
abbrev RemapState := Owners × RemapMaps

/-- The `claim` closure of `PlanRemap`. -/
def claimVirtual (pool : Str) (owner : Owners) (virtual source : Str) : Outcome PlanError Owners :=
  match Ownership.claim owner virtual source with
  | .ok owner => .ok owner
  | .error previous => .err (.collision pool previous source virtual)

/-- Who claims a range of a peer. -/
def peerSource (peerClusterID cidr : Str) : Str := "peer " ++ peerClusterID ++ " " ++ cidr

/-- Who claims an own range. -/
def localSource (localClusterID real : Str) : Str :=
  "local " ++ localClusterID ++ " " ++ real

/-- Inner loop body of `PlanRemap`: present one overlapping local range. -/
def planLocal (pool localClusterID : Str) (peerNet : IPNet) (state : RemapState)
    (localNet : IPNet) :
    Outcome PlanError RemapState :=
  if !cidrsOverlap localNet peerNet then pure state
  else do
    let real := localNet.string
    let virtual ← (virtualCIDR pool localClusterID real).mapErr (.local real)
    let owner ← claimVirtual pool state.1 virtual (localSource localClusterID real)
    return (owner, { state.2 with localSet := state.2.localSet.insert real ⟨real, virtual⟩ })

/-- Outer loop body of `PlanRemap`: route one conflicting peer CIDR. -/
def planConflict (pool localClusterID peerClusterID : Str) (locals : List IPNet)
    (state : RemapState) (cidr : Str) : Outcome PlanError RemapState :=
  match parseNet cidr with
  | none => pure state
  | some peerNet => do
      let virtual ← (virtualCIDR pool peerClusterID cidr).mapErr (.peer peerClusterID cidr)
      let owner ← claimVirtual pool state.1 virtual (peerSource peerClusterID cidr)
      locals.foldlM (planLocal pool localClusterID peerNet)
        (owner, { state.2 with routeSet := state.2.routeSet.insert virtual })

/-- The virtual ranges of a pair of clusters. -/
def planRemap (pool localClusterID : Str) (localCIDRs : List Str) (peerClusterID : Str)
    (conflictingPeerCIDRs : List Str) : Outcome PlanError RemapPlan := do
  let locals := parseCIDRList localCIDRs
  let (_, maps) ← conflictingPeerCIDRs.foldlM
    (planConflict pool localClusterID peerClusterID locals)
    (∅, { routeSet := [], localSet := ∅ })
  return {
    routeVirtual := sortStrings maps.routeSet
    locals := (sortStrings maps.localSet.keys).filterMap maps.localSet.lookup }

end DatawerxMesh.Topology
