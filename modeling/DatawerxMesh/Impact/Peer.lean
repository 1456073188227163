import DatawerxMesh.Topology.Detection

/-!
# The impact of a peer change

`AnalyzePeerChange` of `pkg/impact/impact.go` reports the conflicts that a peer adds, compared as
texts.
-/

namespace DatawerxMesh.Impact

open Go Addressing DatawerxMesh.Topology List

/-- What a new peer would change. -/
structure PeerImpact where
  phase : MeshPeerPhase
  routable : List Str
  withheld : List Str
  dangerous : List Str
  newConflicts : List Str
  message : Str
  deriving DecidableEq

/-- Nothing is withheld and nothing conflicts. -/
def PeerImpact.safe (p : PeerImpact) : Bool :=
  p.withheld.length == 0 && p.dangerous.length == 0 && p.newConflicts.length == 0

/-- The keys of `conflictSet`. -/
def conflictSet (cs : List TopologyConflict) : List Str := cs.map TopologyConflict.string

/-- The plan for a peer and the conflicts it adds. -/
def analyzePeerChange (quote : Str → Str) (proposed : MeshPeerSpec) (localCIDRs : List Str)
    (existing : List PeerIdentity) : PeerImpact :=
  let plan := planPeer proposed localCIDRs
  let before := conflictSet (detectTopologyConflicts quote existing)
  let withProposed := existing ++ [.of proposed]
  let introduced := (conflictSet (detectTopologyConflicts quote withProposed)).filter
    fun text => text ∉ before
  { phase := plan.phase
    routable := plan.routableCIDRs
    withheld := plan.conflictingCIDRs
    dangerous := dangerousCIDRs proposed.allCIDRs
    message := plan.message
    newConflicts := sortStrings introduced }

/-- The network contains addresses that are never steered into the mesh. -/
def Dangerous (net : IPNet) : Prop := DefaultRoute net ∨ ∃ ip, Reserved ip ∧ net.contains ip = true

/-- The network shares an address with a local CIDR. -/
def TouchesLocal (localCIDRs : List Str) (net : IPNet) : Prop :=
  ∃ cidr ∈ localCIDRs, ∃ own, parseNet cidr = some own ∧ Shares net own

/-- The proposed peer has an identity of its own and addresses of its own. -/
structure ConflictFree (proposed : MeshPeerSpec) (localCIDRs : List Str)
    (existing : List PeerIdentity) : Prop where
  named : proposed.clusterID ≠ []
  keyed : proposed.publicKey ≠ []
  own_id : ∀ q ∈ existing, q.clusterID ≠ proposed.clusterID
  own_key : ∀ q ∈ existing, q.publicKey ≠ proposed.publicKey
  planned : ∀ cidr ∈ proposed.allCIDRs, ∃ net, parseNet cidr = some net ∧ ¬ Dangerous net ∧
    ¬ TouchesLocal localCIDRs net
  apart : ∀ q ∈ existing, ¬ (PeerIdentity.of proposed).Meets q

/-- The peer collides with an existing one or has no key, and none of its CIDRs is withheld.
Without a key only the dangerous ones are looked for. -/
structure Colliding (proposed : MeshPeerSpec) (localCIDRs : List Str)
    (existing : List PeerIdentity) : Prop where
  collides : proposed.publicKey = [] ∨ ∃ q ∈ existing, q.clusterID = proposed.clusterID ∨
    q.publicKey = proposed.publicKey ∨ (PeerIdentity.of proposed).Meets q
  harmless : ∀ cidr ∈ proposed.allCIDRs, ∀ net, parseNet cidr = some net → ¬ Dangerous net
  planned : proposed.publicKey ≠ [] → ∀ cidr ∈ proposed.allCIDRs, ∃ net, parseNet cidr = some net ∧
    ¬ TouchesLocal localCIDRs net

/-- A conflict of the proposed peer is worded unlike every conflict among the existing ones. -/
def WordedAnew (quote : Str → Str) (proposed : MeshPeerSpec) (existing : List PeerIdentity) :
    Prop :=
  ∃ c, Clash quote existing (.of proposed) c ∧ ∀ d, Clashes quote existing d → d.string ≠ c.string

theorem dangerousCIDRs_eq_nil_iff (cidrs : List Str) :
    dangerousCIDRs cidrs = [] ↔
      ∀ cidr ∈ cidrs, ∀ net, parseNet cidr = some net → ¬ Dangerous net := by
  simp only [dangerousCIDRs, filter_eq_nil_iff, dangerousText, Option.any_eq_true, not_exists,
    not_and, isDangerousCIDR_iff]
  exact Iff.rfl

theorem withheld_eq_nil_iff (proposed : MeshPeerSpec) (localCIDRs : List Str) :
    (planPeer proposed localCIDRs).conflictingCIDRs = [] ↔
      (proposed.publicKey ≠ [] → ∀ cidr ∈ proposed.allCIDRs, ∃ net, parseNet cidr = some net ∧
        ¬ Dangerous net ∧ ¬ TouchesLocal localCIDRs net) := by
  have routable : ∀ cidr, routableText (parseCIDRList localCIDRs) cidr = true ↔
      ∃ net, parseNet cidr = some net ∧ ¬ Dangerous net ∧ ¬ TouchesLocal localCIDRs net := by
    intro cidr
    cases parsed : parseNet cidr with
    | none => simp [routableText, parsed]
    | some net =>
      rw [routableText_of_parseNet parsed]
      simp only [Touches, Dangerous, TouchesLocal]
      grind
  rw [planPeer]
  split
  case isTrue keyless => simp [keyless]
  case isFalse keyed =>
    simp only [partition_snd, filter_eq_nil_iff, Bool.not_eq_true', Bool.not_eq_false,
      routable, keyed, not_false_eq_true, forall_const, ne_eq]

section Verdict

variable (quote : Str → Str) (proposed : MeshPeerSpec) (existing : List PeerIdentity)

theorem newConflicts_eq_nil_iff (localCIDRs : List Str) :
    (analyzePeerChange quote proposed localCIDRs existing).newConflicts = [] ↔
      ¬ WordedAnew quote proposed existing := by
  have texts : ∀ peers text, text ∈ conflictSet (detectTopologyConflicts quote peers) ↔
      ∃ c, Clashes quote peers c ∧ c.string = text := by
    intro peers text
    simp only [conflictSet, mem_map, mem_detectTopologyConflicts]
  rw [analyzePeerChange, sortStrings]
  simp only [eq_nil_iff_forall_not_mem, Sorting.mem_sort, mem_filter, texts,
    clashes_append_singleton, decide_eq_true_eq]
  constructor
  · rintro known ⟨c, clash, anew⟩
    refine known c.string ⟨⟨c, .inr clash, rfl⟩, ?_⟩
    rintro ⟨d, clashes, same⟩
    exact anew d clashes same
  · rintro worded _ ⟨⟨c, clashes | clash, rfl⟩, absent⟩
    · exact absent ⟨c, clashes, rfl⟩
    · exact worded ⟨c, clash, fun d clashes same => absent ⟨d, clashes, same⟩⟩

theorem safe_iff (localCIDRs : List Str) :
    (analyzePeerChange quote proposed localCIDRs existing).safe = true ↔
      (planPeer proposed localCIDRs).conflictingCIDRs = [] ∧
        dangerousCIDRs proposed.allCIDRs = [] ∧ ¬ WordedAnew quote proposed existing := by
  rw [← newConflicts_eq_nil_iff quote proposed existing localCIDRs]
  simp only [PeerImpact.safe, Bool.and_eq_true, beq_iff_eq, length_eq_zero_iff, and_assoc]
  exact Iff.rfl

theorem eq_of_string_eq {c d : TopologyConflict} (id_plain : 58 ∉ c.clusterID)
    (reason_plain : 58 ∉ c.reason) (same : d.string = c.string) : d = c := by
  simp only [TopologyConflict.string, append_assoc] at same
  obtain ⟨id_eq, -, reason_eq⟩ := (append_cons_inj_of_notMem id_plain
    (fun mem => reason_plain ((mem_cons.mp mem).resolve_left (by decide)))).mp same.symm
  cases c
  cases d
  simp_all

/-- A peer without an ID is reported by its position, which no other peer has. -/
theorem wordedAnew_of_nameless (nameless : proposed.clusterID = []) :
    WordedAnew quote proposed existing := by
  refine ⟨_, .nameless nameless, ?_⟩
  rintro d ⟨before, p, after, rfl, clash⟩ same
  have label_plain : (58 : UInt8) ∉ positionLabel (before ++ p :: after).length := by
    simp only [positionLabel, mem_append, not_or]
    refine ⟨⟨by decide, fun digit => ?_⟩, by decide⟩
    exact absurd (isDigit_of_mem_itoa digit) (by decide)
  have reason_plain : (58 : UInt8) ∉ str "missing cluster ID" := by decide
  have d_eq := eq_of_string_eq label_plain reason_plain same
  obtain ⟨-, label_eq⟩ := clash.of_missing_ID quote (congrArg TopologyConflict.reason d_eq)
  have position := positionLabel_injective
    (label_eq.symm.trans (congrArg TopologyConflict.clusterID d_eq))
  simp at position

theorem clash_of_listed {before : List PeerIdentity} {p : PeerIdentity} {c : TopologyConflict}
    (named : p.clusterID ≠ []) (listed : p ∈ before) (clash : Clash quote (before ++ [p]) p c) :
    Clash quote before p c := by
  have already : ∀ q ∈ before ++ [p], q ∈ before := by
    intro q mem
    rcases mem_append.mp mem with earlier | last
    · exact earlier
    · exact mem_singleton.mp last ▸ listed
  cases clash with
  | nameless empty => exact absurd empty named
  | keyless empty => exact .keyless empty
  | unplaced empty => exact .unplaced empty
  | usedID _ mem same => exact .usedID named (already _ mem) same
  | usedKey keyed found =>
    -- The copy has the key, so the first peer with it is found before the end.
    refine .usedKey keyed ?_
    have some_first : (before.find? fun q => q.publicKey = p.publicKey).isSome :=
      List.find?_isSome.mpr ⟨p, listed, decide_eq_true rfl⟩
    rwa [List.find?_append, Option.or_of_isSome some_first] at found
  | malformed mem unread => exact .malformed mem unread
  | overlap mem overlaps => exact .overlap (already _ mem) overlaps

theorem not_wordedAnew_of_listed {before : List PeerIdentity}
    (named : proposed.clusterID ≠ []) (listed : .of proposed ∈ before) :
    ¬ WordedAnew quote proposed (before ++ [.of proposed]) := by
  rintro ⟨c, clash, anew⟩
  exact anew c ⟨before, _, [], rfl, clash_of_listed quote named listed clash⟩ rfl

end Verdict

/-- A change that is found safe is free of conflicts exactly when a colliding peer, of which nothing
is withheld, always has a conflict in words of its own. -/
theorem peer_impact_sound_iff (quote : Str → Str) (proposed : MeshPeerSpec)
    (localCIDRs : List Str) (existing : List PeerIdentity) :
    ((analyzePeerChange quote proposed localCIDRs existing).safe = true →
        ConflictFree proposed localCIDRs existing) ↔
      (Colliding proposed localCIDRs existing → WordedAnew quote proposed existing) := by
  rw [safe_iff, withheld_eq_nil_iff, dangerousCIDRs_eq_nil_iff]
  constructor
  · intro sound colliding
    by_contra known
    have planned : proposed.publicKey ≠ [] → ∀ cidr ∈ proposed.allCIDRs, ∃ net,
        parseNet cidr = some net ∧ ¬ Dangerous net ∧ ¬ TouchesLocal localCIDRs net := by
      intro keyed cidr mem
      obtain ⟨net, parsed, untouched⟩ := colliding.planned keyed cidr mem
      exact ⟨net, parsed, colliding.harmless cidr mem net parsed, untouched⟩
    have free := sound ⟨planned, colliding.harmless, known⟩
    rcases colliding.collides with keyless | ⟨q, mem, same_id | same_key | meets⟩
    · exact free.keyed keyless
    · exact free.own_id q mem same_id
    · exact free.own_key q mem same_key
    · exact free.apart q mem meets
  · rintro worded ⟨planned, harmless, known⟩
    have not_colliding : ¬ Colliding proposed localCIDRs existing := fun colliding =>
      known (worded colliding)
    have apart : ¬ (proposed.publicKey = [] ∨ ∃ q ∈ existing, q.clusterID = proposed.clusterID ∨
        q.publicKey = proposed.publicKey ∨ (PeerIdentity.of proposed).Meets q) := by
      intro collides
      refine not_colliding ⟨collides, harmless, fun keyed cidr mem => ?_⟩
      obtain ⟨net, parsed, -, untouched⟩ := planned keyed cidr mem
      exact ⟨net, parsed, untouched⟩
    obtain ⟨keyed, alone⟩ := not_or.mp apart
    refine ⟨fun nameless => known (wordedAnew_of_nameless quote proposed existing nameless), keyed,
      fun q mem same => alone ⟨q, mem, .inl same⟩,
      fun q mem same => alone ⟨q, mem, .inr (.inl same)⟩, planned keyed,
      fun q mem meets => alone ⟨q, mem, .inr (.inr meets)⟩⟩

/-- A peer that is already there. -/
def listedAgain : MeshPeerSpec :=
  ⟨"east", "k1", "192.0.2.1:51820", ["10.1.0.0/16"], []⟩

/-- The same cluster, which is listed twice already. -/
def listedTwice : List PeerIdentity :=
  [⟨"east", "k1", "192.0.2.1:51820", ["10.1.0.0/16"]⟩,
    ⟨"east", "k1", "192.0.2.1:51820", ["10.1.0.0/16"]⟩]

/-- The third entry shares ID, key and addresses with the others, and is found safe. -/
theorem third_entry_found_safe :
    (∀ quote, (analyzePeerChange quote listedAgain [] listedTwice).safe = true ∧
      (analyzePeerChange quote listedAgain [] listedTwice).newConflicts = []) ∧
      (∃ q ∈ listedTwice, q.clusterID = listedAgain.clusterID ∧
        q.publicKey = listedAgain.publicKey ∧ q.cidrs = listedAgain.allCIDRs) ∧
      ∀ quote, ¬ ((analyzePeerChange quote listedAgain [] listedTwice).safe = true →
        ConflictFree listedAgain [] listedTwice) := by
  have masked : ∀ quote, ¬ WordedAnew quote listedAgain listedTwice := fun quote =>
    @not_wordedAnew_of_listed quote listedAgain [.of listedAgain] (by decide) mem_cons_self
  have safe : ∀ quote, (analyzePeerChange quote listedAgain [] listedTwice).safe = true :=
    fun quote => (safe_iff quote listedAgain listedTwice []).mpr
      ⟨by decide, by decide, masked quote⟩
  refine ⟨fun quote => ⟨safe quote, ?_⟩, by decide, fun quote sound => ?_⟩
  · exact (newConflicts_eq_nil_iff quote listedAgain listedTwice []).mpr (masked quote)
  · exact (sound (safe quote)).own_id _ mem_cons_self rfl

end DatawerxMesh.Impact
