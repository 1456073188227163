import DatawerxMesh.Topology.Remap
import DatawerxMesh.Topology.Separation

/-!
# Conflicts between peers

`pkg/topology/conflicts.go`: what makes a set of remote peers ambiguous, each conflict under one
cluster ID.
-/

namespace DatawerxMesh.Topology

open Go Addressing List

/-- What must not clash between peers. -/
structure PeerIdentity where
  clusterID : Str
  publicKey : Str
  endpoint : Str
  cidrs : List Str
  deriving DecidableEq

/-- The identity of a peer with the given spec. -/
def PeerIdentity.of (spec : MeshPeerSpec) : PeerIdentity where
  clusterID := spec.clusterID
  publicKey := spec.publicKey
  endpoint := spec.endpoint
  cidrs := spec.allCIDRs

/-- A report on a cluster. -/
structure TopologyConflict where
  clusterID : Str
  reason : Str
  deriving DecidableEq

/-- `parsedPeer`, without the `order` that nothing reads. -/
structure ParsedPeer where
  id : Str
  nets : List IPNet

/-- The head of a key. -/
def shortKey (k : Str) : Str := if k.length ≤ 8 then k else k.take 8 ++ "…"

/-- The fields that are empty. -/
def missingFieldConflicts (p : PeerIdentity) (i : Nat) : List TopologyConflict :=
  (if p.clusterID = [] then
    [⟨"<peer #" ++ itoa i ++ ">", "missing cluster ID"⟩] else []) ++
  (if p.publicKey = [] then [⟨p.clusterID, "missing public key"⟩] else []) ++
  (if p.endpoint = [] then [⟨p.clusterID, "missing endpoint"⟩] else [])

/-- The maps `seenID` and `seenKey`: the cluster IDs so far, and the first one of every key. -/
structure Seen where
  ids : List Str
  keys : AList fun _ : Str => Str

section Detect

variable (quote : Str → Str)

/-- The part of `identityConflicts` about the cluster ID. -/
def duplicateIDConflicts (p : PeerIdentity) (ids : List Str) : List TopologyConflict × List Str :=
  if p.clusterID = [] then ([], ids)
  else (if p.clusterID ∈ ids then [⟨p.clusterID, "duplicate cluster ID"⟩] else [],
    p.clusterID :: ids)

/-- The part of `identityConflicts` about the public key. -/
def sharedKeyConflicts (p : PeerIdentity) (keys : AList fun _ : Str => Str) :
    List TopologyConflict × AList fun _ : Str => Str :=
  if p.publicKey = [] then ([], keys)
  else
    match keys.lookup p.publicKey with
    | some first =>
      ([⟨p.clusterID, "public key " ++ shortKey p.publicKey ++
        " also used by cluster " ++ quote first⟩], keys)
    | none => ([], keys.insert p.publicKey p.clusterID)

/-- An ID or a key seen before. -/
def identityConflicts (p : PeerIdentity) (seen : Seen) : List TopologyConflict × Seen :=
  let (byID, ids) := duplicateIDConflicts p seen.ids
  let (byKey, keys) := sharedKeyConflicts quote p seen.keys
  (byID ++ byKey, ⟨ids, keys⟩)

/-- The ranges of a peer, and those that do not parse. -/
def parsePeerCIDRs (p : PeerIdentity) : ParsedPeer × List TopologyConflict :=
  (⟨p.clusterID, p.cidrs.filterMap parseNet⟩,
    (p.cidrs.filter fun c => (parseNet c).isNone).map fun c =>
      ⟨p.clusterID, "invalid CIDR " ++ quote c ++ ": " ++ parseErrorText c⟩)

/-- The first range that overlaps. -/
def firstOverlap (a b : List IPNet) : Str :=
  match a.find? fun x => b.any (cidrsOverlap x) with
  | some x => x.string
  | none => []

/-- The body of the inner loop of `cidrOverlapConflicts`. -/
def cidrOverlapConflict (a b : ParsedPeer) : List TopologyConflict :=
  if a.id = b.id then []
  else
    let (a, b) := if less b.id a.id then (b, a) else (a, b)
    let net := firstOverlap a.nets b.nets
    if net = [] then [] else [⟨a.id, "CIDR " ++ net ++ " overlaps cluster " ++ quote b.id⟩]

/-- The pairs of peers that overlap. -/
def cidrOverlapConflicts : List ParsedPeer → List TopologyConflict
  | [] => []
  | a :: rest => rest.flatMap (cidrOverlapConflict quote a) ++ cidrOverlapConflicts rest

/-- The variables of the loop of `DetectTopologyConflicts`. -/
structure Scan where
  conflicts : List TopologyConflict
  seen : Seen
  parsed : List ParsedPeer

/-- The body of the loop. -/
def scanPeer (scan : Scan) (item : PeerIdentity × Nat) : Scan :=
  let (p, i) := item
  let (identity, seen) := identityConflicts quote p scan.seen
  let (pp, malformed) := parsePeerCIDRs quote p
  { conflicts := scan.conflicts ++ missingFieldConflicts p i ++ identity ++ malformed
    seen, parsed := scan.parsed ++ [pp] }

/-- The order of reports. -/
def lessConflict : TopologyConflict → TopologyConflict → Bool :=
  Sorting.byField TopologyConflict.clusterID less fun a b => less a.reason b.reason

/-- All reports, sorted. -/
def detectTopologyConflicts (peers : List PeerIdentity) : List TopologyConflict :=
  let scan := peers.zipIdx.foldl (scanPeer quote) ⟨[], ⟨[], ∅⟩, []⟩
  Sorting.sort lessConflict (scan.conflicts ++ cidrOverlapConflicts quote scan.parsed)

/-- Some report names the cluster. -/
def Named (conflicts : List TopologyConflict) (id : Str) : Prop :=
  ∃ conflict ∈ conflicts, conflict.clusterID = id

/-- Some networks of the two peers overlap. -/
def ParsedPeer.Overlaps (a b : ParsedPeer) : Prop :=
  ∃ x ∈ a.nets, ∃ y ∈ b.nets, cidrsOverlap x y = true

theorem ParsedPeer.Overlaps.symm {a b : ParsedPeer} (overlaps : a.Overlaps b) : b.Overlaps a := by
  obtain ⟨x, x_mem, y, y_mem, overlap⟩ := overlaps
  exact ⟨y, y_mem, x, x_mem, cidrsOverlap_comm x y ▸ overlap⟩

theorem net_string_ne_nil (net : IPNet) : net.string ≠ [] := by
  rw [IPNet.string]
  split <;> simp

theorem firstOverlap_ne_nil_iff (a b : ParsedPeer) :
    firstOverlap a.nets b.nets ≠ [] ↔ a.Overlaps b := by
  rw [firstOverlap]
  split
  case h_1 x found =>
    refine iff_of_true (net_string_ne_nil x) ?_
    have overlap := List.find?_some found
    rw [any_eq_true] at overlap
    obtain ⟨y, y_mem, overlap⟩ := overlap
    exact ⟨x, mem_of_find?_eq_some found, y, y_mem, overlap⟩
  case h_2 missing =>
    refine iff_of_false (fun absurd_ne => absurd_ne rfl) ?_
    rintro ⟨x, x_mem, y, y_mem, overlap⟩
    have none_overlaps := List.find?_eq_none.mp missing x x_mem
    exact none_overlaps (any_eq_true.mpr ⟨y, y_mem, overlap⟩)

theorem named_overlap (a b : ParsedPeer) (reason id : Str) :
    Named (if firstOverlap a.nets b.nets = [] then [] else [⟨a.id, reason⟩]) id ↔
      a.id = id ∧ a.Overlaps b := by
  rw [← firstOverlap_ne_nil_iff]
  split
  case isTrue empty => simp [Named, empty]
  case isFalse some_net => simp [Named, some_net]

theorem named_cidrOverlapConflict (a b : ParsedPeer) (id : Str) :
    Named (cidrOverlapConflict quote a b) id ↔
      a.id = id ∧ less a.id b.id = true ∧ a.Overlaps b ∨
        b.id = id ∧ less b.id a.id = true ∧ b.Overlaps a := by
  rw [cidrOverlapConflict]
  split
  case isTrue same => simp [Named, same, less_orders.irrefl]
  case isFalse apart =>
    cases after : less b.id a.id with
    | true =>
      have before : less a.id b.id = false := less_orders.asymm _ _ after
      refine (named_overlap b a _ id).trans ?_
      simp [before]
    | false =>
      have before : less a.id b.id = true := by
        by_contra not_before
        exact apart (less_orders.ties _ _ (by simpa using not_before) after)
      refine (named_overlap a b _ id).trans ?_
      simp [before]

/-- What is wrong with a peer after the ones before it. -/
def Flawed (before : List PeerIdentity) (p : PeerIdentity) : Prop :=
  p.publicKey = [] ∨ p.endpoint = [] ∨ (∃ c ∈ p.cidrs, parseNet c = none) ∨
    (∃ q ∈ before, q.clusterID = p.clusterID) ∨
    p.publicKey ≠ [] ∧ ∃ q ∈ before, q.publicKey = p.publicKey

/-- The maps hold the IDs and the keys of the peers before. -/
structure Seen.Records (seen : Seen) (before : List PeerIdentity) : Prop where
  ids : ∀ id, id ∈ seen.ids ↔ id ≠ [] ∧ ∃ q ∈ before, q.clusterID = id
  keys : ∀ key, key ∈ seen.keys ↔ key ≠ [] ∧ ∃ q ∈ before, q.publicKey = key

theorem records_identityConflicts {seen : Seen} {before : List PeerIdentity}
    (records : seen.Records before) (p : PeerIdentity) :
    (identityConflicts quote p seen).2.Records (before ++ [p]) := by
  constructor
  · intro id
    have ids_eq : (identityConflicts quote p seen).2.ids =
        (duplicateIDConflicts p seen.ids).2 := rfl
    rw [ids_eq, duplicateIDConflicts]
    have recorded := records.ids id
    split
    case isTrue nameless => grind
    case isFalse named => grind
  · intro key
    have keys_eq : (identityConflicts quote p seen).2.keys =
        (sharedKeyConflicts quote p seen.keys).2 := rfl
    rw [keys_eq, sharedKeyConflicts]
    have recorded := records.keys
    split
    case isTrue keyless => grind
    case isFalse keyed =>
      split
      case h_1 first found =>
        have present : p.publicKey ∈ seen.keys := AList.lookup_isSome.mp (by rw [found]; rfl)
        grind
      case h_2 missing =>
        rw [AList.mem_insert]
        grind

theorem parsed_scan (peers : List PeerIdentity) (scan : Scan) (start : Nat) :
    ((peers.zipIdx start).foldl (scanPeer quote) scan).parsed =
      scan.parsed ++ peers.map fun p => (parsePeerCIDRs quote p).1 := by
  induction peers generalizing scan start with
  | nil => simp
  | cons first rest ih =>
    rw [zipIdx_cons, foldl_cons, ih]
    simp [scanPeer]

/-- Some CIDRs of the two peers share an address. -/
def PeerIdentity.Meets (p q : PeerIdentity) : Prop :=
  ∃ c ∈ p.cidrs, ∃ x, parseNet c = some x ∧ ∃ d ∈ q.cidrs, ∃ y, parseNet d = some y ∧ Shares x y

theorem PeerIdentity.Meets.symm {p q : PeerIdentity} (meets : p.Meets q) : q.Meets p := by
  obtain ⟨c, c_mem, x, c_eq, d, d_mem, y, d_eq, ip, in_x, in_y⟩ := meets
  exact ⟨d, d_mem, y, d_eq, c, c_mem, x, c_eq, ip, in_y, in_x⟩

theorem overlaps_parsePeerCIDRs (p q : PeerIdentity) :
    (parsePeerCIDRs quote p).1.Overlaps (parsePeerCIDRs quote q).1 ↔ p.Meets q := by
  simp only [ParsedPeer.Overlaps, parsePeerCIDRs, mem_filterMap, PeerIdentity.Meets,
    cidrsOverlap_iff_shares]
  constructor
  · rintro ⟨x, ⟨c, c_mem, c_eq⟩, y, ⟨d, d_mem, d_eq⟩, shares⟩
    exact ⟨c, c_mem, x, c_eq, d, d_mem, y, d_eq, shares⟩
  · rintro ⟨c, c_mem, x, c_eq, d, d_mem, y, d_eq, shares⟩
    exact ⟨x, ⟨c, c_mem, c_eq⟩, y, ⟨d, d_mem, d_eq⟩, shares⟩

end Detect

end DatawerxMesh.Topology
