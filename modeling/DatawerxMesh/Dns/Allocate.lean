import DatawerxMesh.Dns.Aggregate
import DatawerxMesh.Go.Hash

/-!
# Virtual addresses

`AllocateClusterSetIPs` of `pkg/dns/allocate.go`: sorted keys are hashed to offsets in the range,
and again while the address is taken.
-/

namespace DatawerxMesh.Dns

open Go Sorting List

/-- Probes beyond one for each key. -/
def maxProbeBudget : Nat := 64

/-- The errors of `AllocateClusterSetIPs`. -/
inductive AllocateError where
  | parse (cidr : Str)
  | tooSmall (cidr : Str) (size count : Nat)
  | exhausted (cidr : Str) (key : Str)
  deriving DecidableEq

/-- Error texts of `AllocateClusterSetIPs`, with `%q` given by `quote`. -/
def AllocateError.text (quote : Str → Str) : AllocateError → Str
  | parse cidr =>
    "parsing ClusterSet CIDR " ++ quote cidr ++ ": invalid CIDR address: " ++ cidr
  | tooSmall cidr size count =>
    "ClusterSet CIDR " ++ quote cidr ++ " (" ++ itoa size ++
      " addresses) too small for " ++ itoa count ++ " services"
  | exhausted cidr key =>
    "ClusterSet CIDR " ++ quote cidr ++ ": exhausted probe budget allocating " ++ key

/-- The base, the number of addresses and their width in bytes.  A base with a four-byte form is an
IPv4 address, whatever the notation. -/
structure AddressRange where
  baseInt : Nat
  size : Nat
  byteLen : Nat

/-- The addresses of a network. -/
def AddressRange.ofNet (net : IPNet) : AddressRange :=
  let hostBits :=
    match net with
    | .four block => 32 - block.len
    | .sixteen block => 128 - block.len
  match net.ip.to4, net.ip with
  | some base, _ => ⟨base.toNat, 2 ^ hostBits, 4⟩
  | none, .four base => ⟨base.toNat, 2 ^ hostBits, 4⟩
  | none, .sixteen base => ⟨base.toNat, 2 ^ hostBits, 16⟩

/-- The offset of one probe. -/
def offsetInRange (key : Str) (attempt size : Nat) : Nat :=
  (fnv64a (key ++ "#" ++ itoa attempt)).toNat % size

/-- Zeros fill up the bytes of a small number, and a large one loses its high bytes. -/
def bigToIP (v byteLen : Nat) : IP :=
  if byteLen = 4 then .four (BitVec.ofNat 32 v) else .sixteen (BitVec.ofNat 128 v)

/-- The first probe that is free. -/
def allocateOne (key : Str) (range : AddressRange) (budget : Nat) (used : List Str) : Option Str :=
  (List.range budget).findSome? fun attempt =>
    let off := offsetInRange key attempt range.size
    if off = 0 then none
    else
      let s := (bigToIP (range.baseInt + off) range.byteLen).string
      if s ∈ used then none else some s

/-- `map[ServiceKey]string`. -/
abbrev Allocation := AList fun _ : ServiceKey => Str

/-- The loop of `AllocateClusterSetIPs`. -/
def allocateKeys (cidr : Str) (range : AddressRange) (budget : Nat) (used : List Str)
    (out : Allocation) : List ServiceKey → Except AllocateError Allocation
  | [] => .ok out
  | k :: keys =>
    match allocateOne k.string range budget used with
    | none => .error (.exhausted cidr k.string)
    | some s => allocateKeys cidr range budget (s :: used) (out.insert k s) keys

/-- An address for every key. -/
def allocateClusterSetIPs (go : Runtime Site) (cidr : Str) (keys : List ServiceKey) :
    Except AllocateError Allocation :=
  match parseNet cidr with
  | none => .error (.parse cidr)
  | some net =>
    let range := AddressRange.ofNet net
    let keys := sortServiceKeys go keys
    if range.size < keys.length + 1 then .error (.tooSmall cidr range.size keys.length)
    else allocateKeys cidr range (keys.length + maxProbeBudget) [] ∅ keys

/-- A key whose text no other one has gets the same address from all lists with the same texts. -/
theorem lookup_allocateKeys_eq {cidr : Str} {range : AddressRange} {budget : Nat} {key : ServiceKey}
    {left right : List ServiceKey}
    (texts : left.map ServiceKey.string = right.map ServiceKey.string)
    (own : ∀ k, k ∈ left ∨ k ∈ right → k.string = key.string → k = key) (used : List Str)
    {out out' : Allocation} (same : out.lookup key = out'.lookup key) :
    (allocateKeys cidr range budget used out left).map (AList.lookup key) =
      (allocateKeys cidr range budget used out' right).map (AList.lookup key) := by
  induction left generalizing right used out out' with
  | nil =>
    rw [map_eq_nil_iff.mp texts.symm]
    exact congrArg Except.ok same
  | cons k left ih =>
    obtain ⟨k', right, rfl, text_eq, texts⟩ := map_eq_cons_iff.mp texts.symm
    rw [allocateKeys, allocateKeys, text_eq]
    cases allocateOne k.string range budget used with
    | none => rfl
    | some s =>
      refine ih texts.symm (fun other mem => own other ?_) (s :: used) ?_
      · exact mem.imp (mem_cons_of_mem _) (mem_cons_of_mem _)
      · by_cases at_key : key = k
        · obtain rfl : key = k' :=
            (own k' (.inr mem_cons_self) (text_eq.trans (at_key ▸ rfl))).symm
          rw [← at_key, AList.lookup_insert, AList.lookup_insert]
        · have other : key ≠ k' := fun at_key' =>
            at_key (own k (.inl mem_cons_self) (text_eq.symm.trans (at_key' ▸ rfl))).symm
          rwa [AList.lookup_insert_ne at_key, AList.lookup_insert_ne other]

theorem lookup_allocateClusterSetIPs_eq (left_run right_run : Runtime Site) (cidr : Str)
    {left right : List ServiceKey} {key : ServiceKey}
    (own : ∀ k ∈ left, k.string = key.string → k = key) (perm : left.Perm right) :
    (allocateClusterSetIPs left_run cidr left).map (AList.lookup key) =
      (allocateClusterSetIPs right_run cidr right).map (AList.lookup key) := by
  have left_arranges := left_run.sortSlice_arranges .sortServiceKeys lessKey_orders left
  have right_arranges := right_run.sortSlice_arranges .sortServiceKeys lessKey_orders right
  have by_text : ∀ {items result}, Arranges lessKey items result →
      Arranges less (items.map ServiceKey.string) (result.map ServiceKey.string) :=
    fun arranges => Arranges.map_field arranges
  have texts : (sortServiceKeys left_run left).map ServiceKey.string =
      (sortServiceKeys right_run right).map ServiceKey.string :=
    Arranges.unique less_orders (fun _ _ _ _ => id) (perm.map _) (by_text left_arranges)
      (by_text right_arranges)
  have lengths := congrArg List.length texts
  rw [length_map, length_map] at lengths
  rw [allocateClusterSetIPs, allocateClusterSetIPs]
  cases parseNet cidr with
  | none => rfl
  | some net =>
    dsimp only
    rw [lengths]
    split
    · rfl
    · refine lookup_allocateKeys_eq texts (fun k mem => own k ?_) [] rfl
      exact mem.elim left_arranges.perm.mem_iff.mp fun in_right =>
        perm.mem_iff.mpr (right_arranges.perm.mem_iff.mp in_right)

example :
    allocateOne "prod/web" ⟨0xF1000000, 2 ^ 24, 4⟩ 65 [] = some "241.49.19.6" := by
  decide +kernel

end DatawerxMesh.Dns
