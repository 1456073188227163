import DatawerxMesh.Library.Outcome
import DatawerxMesh.Library.PrefixTable
import DatawerxMesh.NatPlane.Rules

/-!
# Map contents of the eBPF data plane

`pkg/dataplane/ebpf/maps.go`: the two longest-prefix maps that realize overlap remap entries, and
the rewrite that the datapath does with them.
-/

namespace DatawerxMesh.Ebpf

open Go Addressing Program PrefixTable NatPlane

/-- A key of the longest-prefix trie. -/
abbrev TrieKey := PrefixTable.Key 32

/-- The range that addresses are moved to. -/
structure Rewrite where
  base : BitVec 32
  prefixLen : Nat
  deriving DecidableEq

/-- An entry and the texts it comes from. -/
structure MapEntry where
  key : TrieKey
  val : Rewrite
  keyCIDR : Str
  valCIDR : Str
  deriving DecidableEq

/-- The entries of both directions. -/
structure RemapMaps where
  ingress : List MapEntry
  egress : List MapEntry
  deriving DecidableEq

/-- Errors of `parseV4Prefix`. -/
inductive PrefixError where
  | parse (cidr : Str)
  | notIPv4
  deriving DecidableEq

/-- The message of an error. -/
def PrefixError.text : PrefixError → Str
  | parse cidr => "invalid CIDR address: " ++ cidr
  | notIPv4 => "not an IPv4 prefix"

/-- Errors of `BuildRemapMaps`. -/
inductive MapsError where
  | real (cidr : Str) (error : PrefixError)
  | virtual (cidr : Str) (error : PrefixError)
  | lengths (realCIDR virtCIDR : Str)
  deriving DecidableEq

/-- The message of an error. -/
def MapsError.text (quote : Str → Str) : MapsError → Str
  | real cidr error => "ebpf remap: real " ++ quote cidr ++ ": " ++ error.text
  | virtual cidr error => "ebpf remap: virtual " ++ quote cidr ++ ": " ++ error.text
  | lengths realCIDR virtCIDR =>
    "ebpf remap: " ++ realCIDR ++ " and " ++ virtCIDR ++
      " differ in prefix length; a 1:1 NETMAP requires equal-size blocks"

/-- `parseV4Prefix`: the key and the canonical text of an IPv4 prefix. -/
def parseV4Prefix (cidr : Str) : Outcome PrefixError (TrieKey × Str) :=
  match parseCIDR cidr with
  | none => .err (.parse cidr)
  | some (ip, net) =>
    match ip.to4, net.ip.to4 with
    | some _, some base => .ok (⟨net.ones, base⟩, net.string)
    | _, _ => .err .notIPv4

/-- The two entries of a remapping. -/
def mapEntries (entry : RemapEntry) : Outcome MapsError (MapEntry × MapEntry) := do
  let (realKey, realCIDR) ← (parseV4Prefix entry.real).mapErr (.real entry.real)
  let (virtKey, virtCIDR) ← (parseV4Prefix entry.virtual).mapErr (.virtual entry.virtual)
  if realKey.len ≠ virtKey.len then .err (.lengths realCIDR virtCIDR)
  else
    return ({ key := virtKey, val := ⟨realKey.addr, realKey.len⟩, keyCIDR := virtCIDR,
              valCIDR := realCIDR },
            { key := realKey, val := ⟨virtKey.addr, virtKey.len⟩, keyCIDR := realCIDR,
              valCIDR := virtCIDR })

/-- The loop of `BuildRemapMaps`. -/
def collectMaps (entries : List RemapEntry) : Outcome MapsError RemapMaps := do
  let pairs ←
    (entries.filter fun entry => !(entry.real == [] || entry.virtual == [])).eraseDups.mapM
    mapEntries
  return { ingress := pairs.map Prod.fst, egress := pairs.map Prod.snd }

/-- The order of `sortEntries`. -/
def lessKey (left right : MapEntry) : Bool := less left.keyCIDR right.keyCIDR

/-- A function that `sort.Slice` may be: it need not keep the order of equal keys. -/
structure Sorter where
  run : List MapEntry → List MapEntry
  perm : ∀ entries, (run entries).Perm entries
  sorted : ∀ entries, (run entries).Pairwise fun left right => lessKey right left = false

/-- The entries of both maps, sorted. -/
def buildRemapMaps (sortEntries : Sorter) (entries : List RemapEntry) :
    Outcome MapsError RemapMaps := do
  let maps ← collectMaps entries
  return { ingress := sortEntries.run maps.ingress, egress := sortEntries.run maps.egress }

/-- Contents of a map after writing its entries in order. -/
def contents (entries : List MapEntry) : Table 32 Rewrite :=
  writeAll (entries.map fun entry => (entry.key, entry.val))

/-- `new = base | (old & hostmask)`. -/
def Rewrite.apply (rewrite : Rewrite) (old : BitVec 32) : BitVec 32 :=
  rewrite.base ||| (old &&& ~~~mask 32 rewrite.prefixLen)

/-- Rewrite an address by its longest matching key; without one it is unchanged. -/
def rewriteBy (entries : List MapEntry) (address : BitVec 32) : BitVec 32 :=
  ((lookup (contents entries) address).map fun rewrite => rewrite.apply address).getD address

end DatawerxMesh.Ebpf
