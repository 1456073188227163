import DatawerxMesh.Library.Repetition
import DatawerxMesh.Topology.Detection

/-!
# Conflicts and the order of arrival

The order of the peers shows in two reports only: peers without an ID are named by position,
repeated keys by the clusters after the first one.
-/

namespace DatawerxMesh.Topology

open Go Addressing Accumulation List

section Reports

variable (quote : Str → Str) (peers : List PeerIdentity)

/-- The reports on peers without an ID. -/
def positionReports : List TopologyConflict :=
  peers.zipIdx.flatMap fun item =>
    if item.1.clusterID = [] then [⟨positionLabel item.2, "missing cluster ID"⟩] else []

variable (p : PeerIdentity)

/-- What is reported of a peer wherever it stands. -/
def ownReports : List TopologyConflict :=
  (if p.publicKey = [] then [⟨p.clusterID, "missing public key"⟩] else []) ++
    (if p.endpoint = [] then [⟨p.clusterID, "missing endpoint"⟩] else []) ++
    (parsePeerCIDRs quote p).2

/-- The peers with an ID. -/
def identifiedPeers : List PeerIdentity :=
  peers.filter fun p => p.clusterID ≠ []

/-- The peers with a key. -/
def keyedPeers : List PeerIdentity :=
  peers.filter fun p => p.publicKey ≠ []

/-- The IDs that come again. -/
def repeatedIDReports : List TopologyConflict :=
  (repeats PeerIdentity.clusterID (identifiedPeers peers)).map fun pair =>
    ⟨pair.1.clusterID, "duplicate cluster ID"⟩

/-- The report on a key used twice. -/
def sharedKeyReport (first : Str) : TopologyConflict where
  clusterID := p.clusterID
  reason := "public key " ++ shortKey p.publicKey ++ " also used by cluster " ++ quote first

/-- The keys that come again. -/
def repeatedKeyReports : List TopologyConflict :=
  (repeats PeerIdentity.publicKey (keyedPeers peers)).map fun pair =>
    sharedKeyReport quote pair.1 pair.2.clusterID

theorem find?_keyedPeers {key : Str} (keyed : key ≠ []) :
    (keyedPeers peers).find? (fun q => q.publicKey = key) =
      peers.find? fun q => q.publicKey = key := by
  rw [keyedPeers, List.find?_filter]
  congr 1
  funext q
  by_cases same : q.publicKey = key
  · simp [same, keyed]
  · simp [same]

theorem repeatedIDReports_append :
    (repeatedIDReports (peers ++ [p])).Perm (repeatedIDReports peers ++
      (duplicateIDConflicts p (scanOf quote peers).seen.ids).1) := by
  rw [repeatedIDReports, identifiedPeers, filter_append, duplicateIDConflicts]
  by_cases nameless : p.clusterID = []
  · rw [if_pos nameless, filter_cons_of_neg (by simp [nameless]), filter_nil,
      append_nil, append_nil]
    exact .refl _
  · rw [if_neg nameless, filter_cons_of_pos (by simp [nameless]), filter_nil]
    refine ((repeats_append_singleton _ _ _).map _).trans ?_
    rw [map_append]
    refine Perm.append_left _ (.of_eq ?_)
    have known_iff := (records_scanOf quote peers).ids p.clusterID
    change List.map _ (((identifiedPeers peers).find? _).map _).toList = _
    cases found : (identifiedPeers peers).find? (fun q => q.clusterID = p.clusterID) with
    | none =>
      have fresh : p.clusterID ∉ (scanOf quote peers).seen.ids := by
        intro known
        obtain ⟨-, q, mem, same⟩ := known_iff.mp known
        have in_identified : q ∈ identifiedPeers peers :=
          mem_filter.mpr ⟨mem, by simp [same, nameless]⟩
        exact List.find?_eq_none.mp found q in_identified (decide_eq_true same)
      rw [if_neg fresh]
      rfl
    | some q =>
      have same := List.find?_some found
      rw [decide_eq_true_eq] at same
      have mem := (mem_filter.mp (mem_of_find?_eq_some found)).1
      rw [if_pos (known_iff.mpr ⟨nameless, q, mem, same⟩)]
      rfl

theorem repeatedKeyReports_append :
    (repeatedKeyReports quote (peers ++ [p])).Perm (repeatedKeyReports quote peers ++
      (sharedKeyConflicts quote p (scanOf quote peers).seen.keys).1) := by
  rw [repeatedKeyReports, keyedPeers, filter_append, sharedKeyConflicts]
  by_cases keyless : p.publicKey = []
  · rw [if_pos keyless, filter_cons_of_neg (by simp [keyless]), filter_nil, append_nil, append_nil]
    exact .refl _
  · rw [if_neg keyless, filter_cons_of_pos (by simp [keyless]), filter_nil,
      lookup_scanOf quote peers keyless]
    refine ((repeats_append_singleton _ _ _).map _).trans ?_
    rw [map_append]
    refine Perm.append_left _ (.of_eq ?_)
    change List.map _ (((keyedPeers peers).find? _).map _).toList = _
    rw [find?_keyedPeers peers keyless]
    cases peers.find? fun q => q.publicKey = p.publicKey with
    | none => rfl
    | some first => rfl

theorem conflicts_scanOf_perm :
    (scanOf quote peers).conflicts.Perm
      (positionReports peers ++ peers.flatMap (ownReports quote) ++
        (repeatedIDReports peers ++ repeatedKeyReports quote peers)) := by
  induction peers using List.reverseRecOn with
  | nil => exact .refl _
  | append_singleton peers p ih =>
    have ids := repeatedIDReports_append quote peers p
    have keys := repeatedKeyReports_append quote peers p
    have step : (scanOf quote (peers ++ [p])).conflicts = (scanOf quote peers).conflicts ++
        missingFieldConflicts p peers.length ++
          ((duplicateIDConflicts p (scanOf quote peers).seen.ids).1 ++
            (sharedKeyConflicts quote p (scanOf quote peers).seen.keys).1) ++
          (parsePeerCIDRs quote p).2 := by
      rw [scanOf_append]
      rfl
    rw [step]
    simp only [perm_iff_count, count_append] at ih ids keys ⊢
    intro c
    rw [ids c, keys c, ih c]
    simp only [missingFieldConflicts, positionReports, ownReports, zipIdx_append,
      flatMap_append, count_append, zipIdx_singleton, flatMap_singleton,
      Nat.zero_add, positionLabel]
    omega

theorem cidrOverlapConflict_comm (a b : ParsedPeer) :
    cidrOverlapConflict quote a b = cidrOverlapConflict quote b a := by
  rw [cidrOverlapConflict, cidrOverlapConflict]
  by_cases same : a.id = b.id
  · rw [if_pos same, if_pos same.symm]
  · rw [if_neg same, if_neg (Ne.symm same)]
    cases smaller : less a.id b.id with
    | true =>
      rw [less_orders.asymm _ _ smaller]
      rfl
    | false =>
      have greater : less b.id a.id = true := by
        by_contra not_greater
        exact same (less_orders.ties _ _ smaller (Bool.not_eq_true _ ▸ not_greater))
      rw [greater]
      rfl

theorem cidrOverlapConflicts_perm {left right : List ParsedPeer} (perm : left.Perm right) :
    (cidrOverlapConflicts quote left).Perm (cidrOverlapConflicts quote right) := by
  induction perm with
  | nil => exact .refl _
  | cons a perm ih => exact (perm.flatMap_right _).append ih
  | swap a b rest =>
    simp only [cidrOverlapConflicts, flatMap_cons, perm_iff_count, count_append,
      cidrOverlapConflict_comm quote b a]
    intro c
    omega
  | trans _ _ first second => exact first.trans second

theorem detectTopologyConflicts_perm :
    (detectTopologyConflicts quote peers).Perm
      (positionReports peers ++ peers.flatMap (ownReports quote) ++
        (repeatedIDReports peers ++ repeatedKeyReports quote peers) ++
        cidrOverlapConflicts quote (peers.map fun p => (parsePeerCIDRs quote p).1)) := by
  refine (Sorting.sort_perm _ _).trans ?_
  rw [parsed_scan, nil_append]
  exact (conflicts_scanOf_perm quote peers).append_right _

theorem lessConflict_orders : Sorting.Orders lessConflict fun c => (c.clusterID, c.reason) :=
  Sorting.Orders.byField less_orders (Sorting.Orders.onField less_orders)

theorem detectTopologyConflicts_eq_iff (left right : List PeerIdentity) :
    detectTopologyConflicts quote left = detectTopologyConflicts quote right ↔
      (detectTopologyConflicts quote left).Perm (detectTopologyConflicts quote right) := by
  refine ⟨fun same => same ▸ .refl _, fun perm => ?_⟩
  have unsorted := (Sorting.sort_perm _ _).symm.trans (perm.trans (Sorting.sort_perm _ _))
  refine Sorting.sort_eq_of_perm lessConflict_orders ?_ unsorted
  intro a b same
  cases a
  cases b
  simpa using same

theorem reports_eq_iff {left right : List PeerIdentity} (perm : left.Perm right) :
    detectTopologyConflicts quote left = detectTopologyConflicts quote right ↔
      (positionReports left ++ repeatedKeyReports quote left).Perm
        (positionReports right ++ repeatedKeyReports quote right) := by
  have own := perm.flatMap_right (ownReports quote)
  have ids : (repeatedIDReports left).Perm (repeatedIDReports right) :=
    @repeats_map_perm _ _ _ PeerIdentity.clusterID _
      (fun p => (⟨p.clusterID, "duplicate cluster ID"⟩ : TopologyConflict)) _ _ (perm.filter _)
      fun a _ b _ same => by rw [same]
  have overlaps := cidrOverlapConflicts_perm quote (perm.map fun p => (parsePeerCIDRs quote p).1)
  rw [detectTopologyConflicts_eq_iff, (detectTopologyConflicts_perm quote left).congr_left,
    (detectTopologyConflicts_perm quote right).congr_right]
  simp only [perm_iff_count, count_append] at own ids overlaps ⊢
  refine forall_congr' fun c => ?_
  rw [own c, ids c, overlaps c]
  omega

theorem positionReports_of_identified {peers : List PeerIdentity}
    (identified : ∀ p ∈ peers, p.clusterID ≠ []) : positionReports peers = [] := by
  rw [positionReports, flatMap_eq_nil_iff]
  intro item mem
  rw [if_neg (identified item.1 (fst_mem_of_mem_zipIdx mem))]

theorem positionReports_of_nameless {peers : List PeerIdentity}
    (nameless : ∀ p ∈ peers, p.clusterID = []) :
    positionReports peers =
      (List.range peers.length).map fun i => ⟨positionLabel i, "missing cluster ID"⟩ := by
  rw [positionReports]
  have each : ∀ item ∈ peers.zipIdx, (if item.1.clusterID = [] then
      [(⟨positionLabel item.2, "missing cluster ID"⟩ : TopologyConflict)] else []) =
        [⟨positionLabel item.2, "missing cluster ID"⟩] := by
    intro item mem
    rw [if_pos (nameless item.1 (fst_mem_of_mem_zipIdx mem))]
  rw [flatMap_congr each, range_eq_range', ← zipIdx_map_snd 0 peers, map_map]
  exact (map_eq_flatMap ..).symm

theorem repeatedKeyReports_perm {left right : List PeerIdentity} (perm : left.Perm right)
    (one_owner : ∀ p ∈ left, ∀ q ∈ left, p.publicKey ≠ [] → p.publicKey = q.publicKey →
      p.clusterID = q.clusterID) :
    (repeatedKeyReports quote left).Perm (repeatedKeyReports quote right) := by
  have decides : ∀ p ∈ keyedPeers left, ∀ q ∈ keyedPeers left, p.publicKey = q.publicKey →
      p.clusterID = q.clusterID := by
    intro p p_mem q q_mem same
    obtain ⟨p_listed, keyed⟩ := mem_filter.mp p_mem
    exact one_owner p p_listed q (mem_filter.mp q_mem).1 (of_decide_eq_true keyed) same
  have keyed_perm : (keyedPeers left).Perm (keyedPeers right) := perm.filter _
  -- With one owner, the first peer of a key can be replaced by the repeating one.
  have own_name : ∀ peers : List PeerIdentity, peers.Perm (keyedPeers left) →
      ((repeats PeerIdentity.publicKey peers).map fun pair =>
        sharedKeyReport quote pair.1 pair.2.clusterID) =
      (repeats PeerIdentity.publicKey peers).map fun pair =>
        sharedKeyReport quote pair.1 pair.1.clusterID := by
    intro peers same_peers
    refine map_congr_left fun pair mem => ?_
    obtain ⟨repeated, first, same⟩ := mem_repeats _ mem
    rw [decides _ (same_peers.mem_iff.mp repeated) _ (same_peers.mem_iff.mp first) same]
  rw [repeatedKeyReports, repeatedKeyReports, own_name _ (.refl _), own_name _ keyed_perm.symm]
  refine @repeats_map_perm _ _ _ PeerIdentity.publicKey _
    (fun p => sharedKeyReport quote p p.clusterID) _ _ keyed_perm ?_
  intro p p_mem q q_mem same
  rw [sharedKeyReport, sharedKeyReport, same, decides p p_mem q q_mem same]

/-- If two peers of one key change places at the front, the reports tell their IDs apart. -/
theorem clusterID_eq_of_swap {p q : PeerIdentity} {rest : List PeerIdentity}
    (keyed : p.publicKey ≠ []) (same : p.publicKey = q.publicKey)
    (perm : (repeatedKeyReports quote (p :: q :: rest)).Perm
      (repeatedKeyReports quote (q :: p :: rest))) : p.clusterID = q.clusterID := by
  have in_front : ∀ {a b : PeerIdentity}, a.publicKey ≠ [] → b.publicKey ≠ [] →
      keyedPeers (a :: b :: rest) = a :: b :: keyedPeers rest := by
    intro a b a_keyed b_keyed
    simp [keyedPeers, a_keyed, b_keyed]
  have other_keyed : q.publicKey ≠ [] := same ▸ keyed
  rw [repeatedKeyReports, repeatedKeyReports, in_front keyed other_keyed,
    in_front other_keyed keyed] at perm
  have ids := perm.map TopologyConflict.clusterID
  rw [map_map, map_map] at ids
  exact value_eq_of_repeats_swap same ids

theorem first_reported_iff (rest : List PeerIdentity) :
    ⟨positionLabel 0, "missing cluster ID"⟩ ∈ detectTopologyConflicts quote (p :: rest) ↔
      p.clusterID = [] := by
  rw [mem_detectTopologyConflicts]
  constructor
  · rintro ⟨before, q, after, split, clash⟩
    obtain ⟨nameless, label_eq⟩ := clash.of_missing_ID quote rfl
    obtain rfl : before = [] := length_eq_zero_iff.mp (positionLabel_injective label_eq).symm
    obtain ⟨rfl, -⟩ := List.cons.inj split
    exact nameless
  · exact fun nameless => ⟨[], p, rest, rfl, .nameless nameless⟩

end Reports

/-- All peers have an ID or none of them has, and peers of one key have one ID. -/
structure ArrivalFree (peers : List PeerIdentity) : Prop where
  alike : (∀ p ∈ peers, p.clusterID ≠ []) ∨ ∀ p ∈ peers, p.clusterID = []
  one_owner : ∀ p ∈ peers, ∀ q ∈ peers, p.publicKey ≠ [] → p.publicKey = q.publicKey →
    p.clusterID = q.clusterID

/-- The reports are the same in every order of arrival exactly when all peers have an ID or none of
them has, and no two clusters share a key. -/
theorem conflicts_order_free_iff (quote : Str → Str) (peers : List PeerIdentity) :
    (∀ arrived, arrived.Perm peers →
      detectTopologyConflicts quote arrived = detectTopologyConflicts quote peers) ↔
      ArrivalFree peers := by
  constructor
  · intro order_free
    have alike : (∀ p ∈ peers, p.clusterID ≠ []) ∨ ∀ p ∈ peers, p.clusterID = [] := by
      by_contra mixed
      simp only [not_or, not_forall, not_not] at mixed
      obtain ⟨⟨p, p_mem, nameless⟩, q, q_mem, identified⟩ := mixed
      have p_first := order_free _ (perm_cons_erase p_mem).symm
      have q_first := order_free _ (perm_cons_erase q_mem).symm
      have reported := (first_reported_iff quote p (peers.erase p)).mpr nameless
      rw [p_first, ← q_first] at reported
      exact identified ((first_reported_iff quote q (peers.erase q)).mp reported)
    refine ⟨alike, fun p p_mem q q_mem keyed same => ?_⟩
    rcases alike with identified | nameless
    · by_cases one : p = q
      · rw [one]
      · have q_later : q ∈ peers.erase p := (mem_erase_of_ne (Ne.symm one)).mpr q_mem
        have p_front : (p :: q :: (peers.erase p).erase q).Perm peers :=
          ((perm_cons_erase q_later).symm.cons p).trans (perm_cons_erase p_mem).symm
        have swap := Perm.swap q p ((peers.erase p).erase q)
        have reports := (order_free _ p_front).trans (order_free _ (swap.symm.trans p_front)).symm
        have no_positions : ∀ arrived : List PeerIdentity, arrived.Perm peers →
            positionReports arrived = [] := fun arrived perm =>
          positionReports_of_identified fun r mem => identified r (perm.mem_iff.mp mem)
        rw [reports_eq_iff quote swap, no_positions _ p_front,
          no_positions _ (swap.symm.trans p_front), nil_append, nil_append] at reports
        exact clusterID_eq_of_swap quote keyed same reports
    · rw [nameless p p_mem, nameless q q_mem]
  · rintro ⟨alike, one_owner⟩ arrived perm
    have positions : positionReports arrived = positionReports peers := by
      rcases alike with identified | nameless
      · rw [positionReports_of_identified identified, positionReports_of_identified
          fun p mem => identified p (perm.mem_iff.mp mem)]
      · rw [positionReports_of_nameless nameless, positionReports_of_nameless
          fun p mem => nameless p (perm.mem_iff.mp mem), perm.length_eq]
    rw [eq_comm, reports_eq_iff quote perm.symm, positions]
    exact (repeatedKeyReports_perm quote perm.symm one_owner).append_left _

/-- A peer with a fixed key. -/
def keyHolder (clusterID : Str) : PeerIdentity :=
  ⟨clusterID, "k1", "192.0.2.1:51820", []⟩

/-- A key that two clusters share is reported under the one that arrives second. -/
theorem reports_follow_arrival :
    (∀ quote, detectTopologyConflicts quote [keyHolder "a", keyHolder "b"] =
        [⟨"b", "public key k1 also used by cluster " ++ quote "a"⟩] ∧
      detectTopologyConflicts quote [keyHolder "b", keyHolder "a"] =
        [⟨"a", "public key k1 also used by cluster " ++ quote "b"⟩]) ∧
    ∀ quote, ¬ ∀ arrived, arrived.Perm [keyHolder "a", keyHolder "b"] →
      detectTopologyConflicts quote arrived =
        detectTopologyConflicts quote [keyHolder "a", keyHolder "b"] := by
  refine ⟨fun quote => ⟨rfl, rfl⟩, fun quote order_free => ?_⟩
  have same := order_free [keyHolder "b", keyHolder "a"] (.swap _ _ _)
  have ids : [str "a"] = [str "b"] := congrArg (List.map TopologyConflict.clusterID) same
  exact absurd ids (by decide)

end DatawerxMesh.Topology
