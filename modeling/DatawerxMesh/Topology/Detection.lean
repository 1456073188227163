import DatawerxMesh.Topology.Conflicts
import Mathlib.Data.List.Induction

/-!
# What the conflict detection reports

`DetectTopologyConflicts` reports, for every peer, what is wrong with it beside the peers before it.
-/

namespace DatawerxMesh.Topology

open Go Addressing List

/-- The text of a report. -/
def TopologyConflict.string (c : TopologyConflict) : Str := c.clusterID ++ ": " ++ c.reason

section Detect

variable (quote : Str → Str) {p : PeerIdentity} {c : TopologyConflict} {before : List PeerIdentity}

/-- The reports on a peer, given those before it. -/
inductive Clash (before : List PeerIdentity) (p : PeerIdentity) : TopologyConflict → Prop where
  | nameless (empty : p.clusterID = []) :
      Clash before p ⟨"<peer #" ++ itoa before.length ++ ">", "missing cluster ID"⟩
  | keyless (empty : p.publicKey = []) : Clash before p ⟨p.clusterID, "missing public key"⟩
  | unplaced (empty : p.endpoint = []) : Clash before p ⟨p.clusterID, "missing endpoint"⟩
  | usedID {q : PeerIdentity} (named : p.clusterID ≠ []) (mem : q ∈ before)
      (same : q.clusterID = p.clusterID) : Clash before p ⟨p.clusterID, "duplicate cluster ID"⟩
  | usedKey {first : PeerIdentity} (keyed : p.publicKey ≠ [])
      (found : before.find? (fun q => q.publicKey = p.publicKey) = some first) :
      Clash before p ⟨p.clusterID, "public key " ++ shortKey p.publicKey ++
        " also used by cluster " ++ quote first.clusterID⟩
  | malformed {cidr : Str} (mem : cidr ∈ p.cidrs) (unread : parseNet cidr = none) :
      Clash before p ⟨p.clusterID,
        "invalid CIDR " ++ quote cidr ++ ": " ++ parseErrorText cidr⟩
  | overlap {q : PeerIdentity} {c : TopologyConflict} (mem : q ∈ before)
      (listed : c ∈ cidrOverlapConflict quote (parsePeerCIDRs quote q).1
        (parsePeerCIDRs quote p).1) : Clash before p c

variable (peers : List PeerIdentity)

/-- A conflict of some peer of the list beside the ones before it. -/
def Clashes (c : TopologyConflict) : Prop :=
  ∃ before p after, peers = before ++ p :: after ∧ Clash quote before p c

theorem clashes_append_singleton (p : PeerIdentity) (c : TopologyConflict) :
    Clashes quote (peers ++ [p]) c ↔ Clashes quote peers c ∨ Clash quote peers p c := by
  constructor
  · rintro ⟨before, q, after, split, clash⟩
    rcases eq_nil_or_concat after with rfl | ⟨rest, last, rfl⟩
    · obtain ⟨rfl, same⟩ := append_inj' split rfl
      obtain rfl := singleton_inj.mp same
      exact .inr clash
    · have split' : peers ++ [p] = (before ++ q :: rest) ++ [last] := by
        rw [split, concat_eq_append, append_assoc, cons_append]
      exact .inl ⟨before, q, rest, (append_inj' split' rfl).1, clash⟩
  · rintro (⟨before, q, after, rfl, clash⟩ | clash)
    · exact ⟨before, q, after ++ [p], by simp, clash⟩
    · exact ⟨peers, p, [], rfl, clash⟩

/-- The variables after the loop of `DetectTopologyConflicts`. -/
def scanOf : Scan :=
  peers.zipIdx.foldl (scanPeer quote) ⟨[], ⟨[], ∅⟩, []⟩

theorem scanOf_append (p : PeerIdentity) :
    scanOf quote (peers ++ [p]) = scanPeer quote (scanOf quote peers) (p, peers.length) := by
  simp [scanOf, zipIdx_append]

theorem records_scanOf : (scanOf quote peers).seen.Records peers := by
  induction peers using List.reverseRecOn with
  | nil => exact ⟨by simp [scanOf], by simp [scanOf]⟩
  | append_singleton peers p ih =>
    rw [scanOf_append]
    exact records_identityConflicts quote ih p

theorem lookup_scanOf {key : Str} (keyed : key ≠ []) :
    (scanOf quote peers).seen.keys.lookup key =
      (peers.find? fun q => q.publicKey = key).map PeerIdentity.clusterID := by
  induction peers using List.reverseRecOn with
  | nil => simp [scanOf]
  | append_singleton peers p ih =>
    have keys_eq : (scanOf quote (peers ++ [p])).seen.keys =
        (sharedKeyConflicts quote p (scanOf quote peers).seen.keys).2 := by
      rw [scanOf_append]
      rfl
    rw [keys_eq, sharedKeyConflicts, List.find?_append]
    by_cases same : p.publicKey = key
    · subst same
      rw [if_neg keyed, ih]
      cases found : peers.find? fun q => q.publicKey = p.publicKey with
      | some first => simpa [found] using ih
      | none => simp [AList.lookup_insert]
    · have alone : [p].find? (fun q => q.publicKey = key) = none := by simp [same]
      rw [alone, Option.or_none, ← ih]
      split
      · rfl
      · split
        · rfl
        · exact AList.lookup_insert_ne (Ne.symm same)

theorem mem_cidrOverlapConflicts_append (parsed : List ParsedPeer) (last : ParsedPeer)
    (c : TopologyConflict) :
    c ∈ cidrOverlapConflicts quote (parsed ++ [last]) ↔
      c ∈ cidrOverlapConflicts quote parsed ∨
        ∃ a ∈ parsed, c ∈ cidrOverlapConflict quote a last := by
  induction parsed with
  | nil => simp [cidrOverlapConflicts]
  | cons first rest ih =>
    simp only [cons_append, cidrOverlapConflicts, flatMap_append, mem_append, ih,
      flatMap_singleton, mem_cons, exists_eq_or_imp]
    grind

theorem mem_missingFieldConflicts {i : Nat} :
    c ∈ missingFieldConflicts p i ↔
      p.clusterID = [] ∧ c = ⟨"<peer #" ++ itoa i ++ ">", "missing cluster ID"⟩ ∨
      p.publicKey = [] ∧ c = ⟨p.clusterID, "missing public key"⟩ ∨
      p.endpoint = [] ∧ c = ⟨p.clusterID, "missing endpoint"⟩ := by
  simp only [missingFieldConflicts, mem_append, mem_ite_nil_right, mem_singleton, or_assoc]

theorem clash_iff (p : PeerIdentity) (c : TopologyConflict) :
    Clash quote peers p c ↔
      c ∈ missingFieldConflicts p peers.length ∨
      c ∈ (identityConflicts quote p (scanOf quote peers).seen).1 ∨
      c ∈ (parsePeerCIDRs quote p).2 ∨
      ∃ q ∈ peers, c ∈ cidrOverlapConflict quote (parsePeerCIDRs quote q).1
        (parsePeerCIDRs quote p).1 := by
  have ids := (records_scanOf quote peers).ids p.clusterID
  have identity : c ∈ (identityConflicts quote p (scanOf quote peers).seen).1 ↔
      (p.clusterID ≠ [] ∧ p.clusterID ∈ (scanOf quote peers).seen.ids ∧
        c = ⟨p.clusterID, "duplicate cluster ID"⟩) ∨
      (p.publicKey ≠ [] ∧ ∃ first ∈ peers.find? fun q => q.publicKey = p.publicKey,
        c = ⟨p.clusterID, "public key " ++ shortKey p.publicKey ++
          " also used by cluster " ++ quote first.clusterID⟩) := by
    rw [identityConflicts, mem_append]
    refine or_congr ?_ ?_
    · rw [duplicateIDConflicts]
      split
      case isTrue nameless => simp [nameless]
      case isFalse named =>
        split
        case isTrue known => simp [named, known]
        case isFalse fresh => simp [fresh]
    · rw [sharedKeyConflicts]
      split
      case isTrue keyless => simp [keyless]
      case isFalse keyed =>
        rw [lookup_scanOf quote peers keyed]
        cases peers.find? fun q => q.publicKey = p.publicKey with
        | some first => simp [keyed]
        | none => simp
  rw [mem_missingFieldConflicts, identity]
  constructor
  · rintro (empty | empty | empty | ⟨named, mem, same⟩ | ⟨keyed, found⟩ | ⟨mem, unread⟩ |
      ⟨mem, listed⟩)
    · exact .inl (.inl ⟨empty, rfl⟩)
    · exact .inl (.inr (.inl ⟨empty, rfl⟩))
    · exact .inl (.inr (.inr ⟨empty, rfl⟩))
    · exact .inr (.inl (.inl ⟨named, ids.mpr ⟨named, _, mem, same⟩, rfl⟩))
    · exact .inr (.inl (.inr ⟨keyed, _, found, rfl⟩))
    · refine .inr (.inr (.inl (mem_map.mpr ⟨_, mem_filter.mpr ⟨mem, ?_⟩, rfl⟩)))
      simp [unread]
    · exact .inr (.inr (.inr ⟨_, mem, listed⟩))
  · rintro ((⟨empty, rfl⟩ | ⟨empty, rfl⟩ | ⟨empty, rfl⟩) |
      (⟨named, known, rfl⟩ | ⟨keyed, first, found, rfl⟩) | malformed | ⟨q, mem, listed⟩)
    · exact .nameless empty
    · exact .keyless empty
    · exact .unplaced empty
    · obtain ⟨-, q, mem, same⟩ := ids.mp known
      exact .usedID named mem same
    · exact .usedKey keyed found
    · obtain ⟨cidr, listed, rfl⟩ := mem_map.mp malformed
      obtain ⟨mem, unread⟩ := mem_filter.mp listed
      exact .malformed mem (Option.isNone_iff_eq_none.mp unread)
    · exact .overlap mem listed

/-- Each peer is reported beside the ones before it. -/
theorem mem_detectTopologyConflicts (c : TopologyConflict) :
    c ∈ detectTopologyConflicts quote peers ↔ Clashes quote peers c := by
  have detected : c ∈ detectTopologyConflicts quote peers ↔
      c ∈ (scanOf quote peers).conflicts ∨
        c ∈ cidrOverlapConflicts quote (peers.map fun p => (parsePeerCIDRs quote p).1) := by
    rw [detectTopologyConflicts, Sorting.mem_sort, mem_append, parsed_scan, nil_append]
    rfl
  rw [detected]
  clear detected
  induction peers using List.reverseRecOn with
  | nil => simp [scanOf, cidrOverlapConflicts, Clashes]
  | append_singleton peers p ih =>
    have scanned : c ∈ (scanOf quote (peers ++ [p])).conflicts ↔
        c ∈ (scanOf quote peers).conflicts ∨ c ∈ missingFieldConflicts p peers.length ∨
          c ∈ (identityConflicts quote p (scanOf quote peers).seen).1 ∨
          c ∈ (parsePeerCIDRs quote p).2 := by
      rw [scanOf_append]
      simp only [scanPeer, mem_append, or_assoc]
    rw [clashes_append_singleton, clash_iff, scanned, map_append, map_singleton,
      mem_cidrOverlapConflicts_append, Iff.symm ih]
    simp only [mem_map, exists_exists_and_eq_and]
    grind

/-- How a peer without an ID is called. -/
def positionLabel (i : Nat) : Str := "<peer #" ++ itoa i ++ ">"

theorem positionLabel_injective : positionLabel.Injective := by
  intro left right same
  simp only [positionLabel, append_assoc, append_cancel_left_eq, append_cancel_right_eq] at same
  exact itoa_injective same

theorem append_ne_of_head {word other rest : Str} (some_word : word ≠ [])
    (apart : word.head? ≠ other.head?) : word ++ rest ≠ other := by
  rintro rfl
  rw [List.head?_append_of_ne_nil word some_word] at apart
  exact apart rfl

theorem reason_of_overlap {a b : ParsedPeer} (listed : c ∈ cidrOverlapConflict quote a b) :
    ∃ rest, c.reason = "CIDR " ++ rest := by
  rw [cidrOverlapConflict] at listed
  split at listed
  · cases listed
  · generalize (if less b.id a.id = true then (b, a) else (a, b)) = pair at listed
    dsimp only at listed
    split at listed
    · cases listed
    · rw [mem_singleton.mp listed, append_assoc, append_assoc]
      exact ⟨_, rfl⟩

theorem Clash.of_missing_ID (clash : Clash quote before p c)
    (reason_eq : c.reason = "missing cluster ID") :
    p.clusterID = [] ∧ c.clusterID = positionLabel before.length := by
  cases clash with
  | nameless empty => exact ⟨empty, rfl⟩
  | keyless | unplaced | usedID =>
    dsimp only at reason_eq
    exact absurd reason_eq (by decide)
  | usedKey keyed found =>
    simp only [append_assoc] at reason_eq
    exact absurd reason_eq (append_ne_of_head (by decide) (by decide))
  | malformed mem unread =>
    simp only [append_assoc] at reason_eq
    exact absurd reason_eq (append_ne_of_head (by decide) (by decide))
  | overlap mem listed =>
    obtain ⟨rest, starts⟩ := reason_of_overlap quote listed
    rw [starts] at reason_eq
    exact absurd reason_eq (append_ne_of_head (by decide) (by decide))

/-- A conflict names a flawed peer, or the smaller of two that share addresses. -/
theorem Clash.names (identified : p.clusterID ≠ []) (clash : Clash quote before p c) :
    p.clusterID = c.clusterID ∧ Flawed before p ∨ ∃ q ∈ before,
      q.clusterID = c.clusterID ∧ less q.clusterID p.clusterID = true ∧ q.Meets p ∨
        p.clusterID = c.clusterID ∧ less p.clusterID q.clusterID = true ∧ p.Meets q := by
  cases clash with
  | nameless empty => exact absurd empty identified
  | keyless empty => exact .inl ⟨rfl, .inl empty⟩
  | unplaced empty => exact .inl ⟨rfl, .inr (.inl empty)⟩
  | malformed mem unread => exact .inl ⟨rfl, .inr (.inr (.inl ⟨_, mem, unread⟩))⟩
  | usedID _ mem same => exact .inl ⟨rfl, .inr (.inr (.inr (.inl ⟨_, mem, same⟩)))⟩
  | usedKey keyed found =>
    have same := List.find?_some found
    rw [decide_eq_true_eq] at same
    exact .inl ⟨rfl, .inr (.inr (.inr (.inr ⟨keyed, _, mem_of_find?_eq_some found, same⟩)))⟩
  | overlap mem listed =>
    have names := (named_cidrOverlapConflict quote _ _ _).mp ⟨c, listed, rfl⟩
    simp only [overlaps_parsePeerCIDRs] at names
    exact .inr ⟨_, mem, names⟩

theorem exists_clash_of_flawed (identified : p.clusterID ≠ []) (flawed : Flawed before p) :
    ∃ c, Clash quote before p c ∧ c.clusterID = p.clusterID := by
  rcases flawed with empty | empty | ⟨cidr, mem, unread⟩ | ⟨q, mem, same⟩ |
    ⟨keyed, q, mem, same⟩
  · exact ⟨_, .keyless empty, rfl⟩
  · exact ⟨_, .unplaced empty, rfl⟩
  · exact ⟨_, .malformed mem unread, rfl⟩
  · exact ⟨_, .usedID identified mem same, rfl⟩
  · have some_first : (before.find? fun q => q.publicKey = p.publicKey).isSome :=
      List.find?_isSome.mpr ⟨q, mem, decide_eq_true same⟩
    obtain ⟨first, found⟩ := Option.isSome_iff_exists.mp some_first
    exact ⟨_, .usedKey keyed found, rfl⟩

/-- Of two that share addresses the smaller is reported, whichever is listed first. -/
theorem exists_clashes_of_meets {peers : List PeerIdentity} {q : PeerIdentity} (p_mem : p ∈ peers)
    (q_mem : q ∈ peers) (smaller : less p.clusterID q.clusterID = true) (meets : p.Meets q) :
    ∃ c, Clashes quote peers c ∧ c.clusterID = p.clusterID := by
  have overlaps := (overlaps_parsePeerCIDRs quote p q).mpr meets
  obtain ⟨before, after, rfl⟩ := append_of_mem p_mem
  rcases mem_append.mp q_mem with earlier | later
  · obtain ⟨c, listed, named⟩ := (named_cidrOverlapConflict quote (parsePeerCIDRs quote q).1
      (parsePeerCIDRs quote p).1 p.clusterID).mpr (.inr ⟨rfl, smaller, overlaps⟩)
    exact ⟨c, ⟨before, p, after, rfl, .overlap earlier listed⟩, named⟩
  · have behind : q ∈ after := by
      refine (mem_cons.mp later).resolve_left fun same => ?_
      rw [same, less_orders.irrefl] at smaller
      cases smaller
    obtain ⟨mid, rest, rfl⟩ := append_of_mem behind
    obtain ⟨c, listed, named⟩ := (named_cidrOverlapConflict quote (parsePeerCIDRs quote p).1
      (parsePeerCIDRs quote q).1 p.clusterID).mpr (.inl ⟨rfl, smaller, overlaps⟩)
    refine ⟨c, ⟨before ++ p :: mid, q, rest, by simp, .overlap ?_ listed⟩, named⟩
    exact mem_append_right _ mem_cons_self

theorem named_detectTopologyConflicts {peers : List PeerIdentity}
    (identified : ∀ p ∈ peers, p.clusterID ≠ []) (id : Str) :
    Named (detectTopologyConflicts quote peers) id ↔
      (∃ before p after, peers = before ++ p :: after ∧ p.clusterID = id ∧ Flawed before p) ∨
      ∃ p ∈ peers, p.clusterID = id ∧ ∃ q ∈ peers, less p.clusterID q.clusterID = true ∧
        p.Meets q := by
  simp only [Named, mem_detectTopologyConflicts]
  constructor
  · rintro ⟨c, ⟨before, p, after, rfl, clash⟩, rfl⟩
    have p_mem : p ∈ before ++ p :: after := mem_append_right _ mem_cons_self
    rcases clash.names quote (identified p p_mem) with ⟨own, flawed⟩ |
      ⟨q, earlier, ⟨named, smaller, meets⟩ | ⟨named, smaller, meets⟩⟩
    · exact .inl ⟨before, p, after, rfl, own, flawed⟩
    · exact .inr ⟨q, mem_append_left _ earlier, named, p, p_mem, smaller, meets⟩
    · exact .inr ⟨p, p_mem, named, q, mem_append_left _ earlier, smaller, meets⟩
  · rintro (⟨before, p, after, rfl, rfl, flawed⟩ | ⟨p, p_mem, rfl, q, q_mem, smaller, meets⟩)
    · have p_mem : p ∈ before ++ p :: after := mem_append_right _ mem_cons_self
      obtain ⟨c, clash, named⟩ := exists_clash_of_flawed quote (identified p p_mem) flawed
      exact ⟨c, ⟨before, p, after, rfl, clash⟩, named⟩
    · exact exists_clashes_of_meets quote p_mem q_mem smaller meets

/-- Every peer is complete and readable, and no two of them share an ID, a key or an address. -/
structure Unambiguous (peers : List PeerIdentity) : Prop where
  identified : ∀ p ∈ peers, p.clusterID ≠ [] ∧ p.publicKey ≠ [] ∧ p.endpoint ≠ []
  own_ids : (peers.map PeerIdentity.clusterID).Nodup
  own_keys : (peers.map PeerIdentity.publicKey).Nodup
  readable : ∀ p ∈ peers, ∀ cidr ∈ p.cidrs, (parseNet cidr).isSome = true
  apart : peers.Pairwise fun p q => ¬ p.Meets q

/-- A peer fits behind others when it is complete and readable and shares nothing with them. -/
structure Fits (before : List PeerIdentity) (p : PeerIdentity) : Prop where
  identified : p.clusterID ≠ [] ∧ p.publicKey ≠ [] ∧ p.endpoint ≠ []
  own_id : ∀ q ∈ before, q.clusterID ≠ p.clusterID
  own_key : ∀ q ∈ before, q.publicKey ≠ p.publicKey
  readable : ∀ cidr ∈ p.cidrs, (parseNet cidr).isSome = true
  apart : ∀ q ∈ before, ¬ q.Meets p

theorem unambiguous_append_singleton (p : PeerIdentity) :
    Unambiguous (peers ++ [p]) ↔ Unambiguous peers ∧ Fits peers p := by
  have nodup_iff : ∀ field : PeerIdentity → Str, ((peers ++ [p]).map field).Nodup ↔
      (peers.map field).Nodup ∧ ∀ q ∈ peers, field q ≠ field p := by
    intro field
    rw [map_append, nodup_append]
    simp
  have pairwise_iff : (peers ++ [p]).Pairwise (fun a b => ¬ a.Meets b) ↔
      peers.Pairwise (fun a b => ¬ a.Meets b) ∧ [p].Pairwise (fun a b => ¬ a.Meets b) ∧
        ∀ a ∈ peers, ∀ b ∈ [p], ¬ a.Meets b := pairwise_append
  constructor
  · intro clear
    have ids := (nodup_iff _).mp clear.own_ids
    have keys := (nodup_iff _).mp clear.own_keys
    have apart := pairwise_iff.mp clear.apart
    have last : p ∈ peers ++ [p] := mem_append_right _ (mem_singleton_self p)
    have earlier : ∀ q ∈ peers, q ∈ peers ++ [p] := fun q mem => mem_append_left _ mem
    exact ⟨⟨fun q mem => clear.identified q (earlier q mem), ids.1, keys.1,
        fun q mem => clear.readable q (earlier q mem), apart.1⟩,
      clear.identified p last, ids.2, keys.2, clear.readable p last,
      fun q mem => apart.2.2 q mem p (mem_singleton_self p)⟩
  · rintro ⟨clear, fits⟩
    have all : ∀ {holds : PeerIdentity → Prop}, (∀ q ∈ peers, holds q) → holds p →
        ∀ q ∈ peers ++ [p], holds q := by
      intro holds before_holds last_holds q mem
      rcases mem_append.mp mem with earlier | last
      · exact before_holds q earlier
      · exact mem_singleton.mp last ▸ last_holds
    refine ⟨all clear.identified fits.identified, (nodup_iff _).mpr ⟨clear.own_ids, fits.own_id⟩,
      (nodup_iff _).mpr ⟨clear.own_keys, fits.own_key⟩, all clear.readable fits.readable,
      pairwise_iff.mpr ⟨clear.apart, pairwise_singleton _ _, fun q mem other last => ?_⟩⟩
    exact mem_singleton.mp last ▸ fits.apart q mem

/-- Peers of one ID are not compared, but then the ID is reported. -/
theorem forall_not_clash_iff (before : List PeerIdentity) (p : PeerIdentity) :
    (∀ c, ¬ Clash quote before p c) ↔ Fits before p := by
  constructor
  · intro silent
    have identified : p.clusterID ≠ [] := fun empty => silent _ (.nameless empty)
    have unflawed : ¬ Flawed before p := by
      intro flawed
      obtain ⟨c, clash, -⟩ := exists_clash_of_flawed quote identified flawed
      exact silent c clash
    simp only [Flawed, not_or, not_exists, not_and] at unflawed
    obtain ⟨keyed, placed, readable, own_id, own_key⟩ := unflawed
    refine ⟨⟨identified, keyed, placed⟩, own_id, own_key keyed,
      fun cidr mem => Option.isSome_iff_ne_none.mpr (readable cidr mem),
      fun q mem meets => ?_⟩
    have overlaps := (overlaps_parsePeerCIDRs quote q p).mpr meets
    have ordered : less q.clusterID p.clusterID = true ∨ less p.clusterID q.clusterID = true := by
      by_contra neither
      rw [not_or, Bool.not_eq_true, Bool.not_eq_true] at neither
      exact own_id q mem (less_orders.ties _ _ neither.1 neither.2)
    have reported : ∃ id, Named (cidrOverlapConflict quote (parsePeerCIDRs quote q).1
        (parsePeerCIDRs quote p).1) id := by
      rcases ordered with smaller | greater
      · exact ⟨_, (named_cidrOverlapConflict quote _ _ _).mpr (.inl ⟨rfl, smaller, overlaps⟩)⟩
      · exact ⟨_, (named_cidrOverlapConflict quote _ _ _).mpr (.inr ⟨rfl, greater, overlaps.symm⟩)⟩
    obtain ⟨id, c, listed, -⟩ := reported
    exact silent c (.overlap mem listed)
  · intro fits c clash
    rcases clash.names quote fits.identified.1 with ⟨-, flawed⟩ |
      ⟨q, earlier, ⟨-, -, meets⟩ | ⟨-, -, meets⟩⟩
    · rcases flawed with empty | empty | ⟨cidr, mem, unread⟩ | ⟨q, mem, same⟩ |
        ⟨-, q, mem, same⟩
      · exact fits.identified.2.1 empty
      · exact fits.identified.2.2 empty
      · exact Option.isSome_iff_ne_none.mp (fits.readable cidr mem) unread
      · exact fits.own_id q mem same
      · exact fits.own_key q mem same
    · exact fits.apart q earlier meets
    · exact fits.apart q earlier meets.symm

/-- Nothing is reported exactly when the peers are unambiguous. -/
theorem no_conflicts_iff (peers : List PeerIdentity) :
    detectTopologyConflicts quote peers = [] ↔ Unambiguous peers := by
  rw [eq_nil_iff_forall_not_mem]
  simp only [mem_detectTopologyConflicts]
  induction peers using List.reverseRecOn with
  | nil =>
    have nothing : ∀ c, ¬ Clashes quote [] c := by simp [Clashes]
    exact iff_of_true nothing ⟨by simp, by simp, by simp, by simp, .nil⟩
  | append_singleton peers p ih =>
    rw [unambiguous_append_singleton, ← ih, ← forall_not_clash_iff quote, ← forall_and]
    simp only [clashes_append_singleton, not_or]

end Detect

end DatawerxMesh.Topology
