import DatawerxMesh.Mesh.Cluster

/-!
# Translation between clusters

Between two clusters a packet and its reply meet four translations that cancel pairwise.
-/

namespace DatawerxMesh.Mesh

open Go Addressing Program DatawerxMesh.Topology Controllers NatPlane Netfilter List

/-- No address lies in the virtual ranges of two entries. -/
def VirtualsDisjoint (entries : List RemapEntry) : Prop :=
  ∀ left ∈ entries, ∀ right ∈ entries, left ≠ right →
    ∀ address, ¬ (ipv4.member left.virtual address = true ∧
      ipv4.member right.virtual address = true)

section Translation

variable {pool : Str} {here : Cluster} {peers : List MeshPeer} {entries : List RemapEntry}
  {others : Cluster → Prop}

section

variable (advertise : AllAdvertise peers others)
  (built : (here.agent pool).remap.buildEntries peers = .ok entries)

include advertise built

theorem postSource_of_entry {range virtual : Block 32} (in_ranges : range ∈ here.ranges)
    (entry : (⟨blockText range, blockText virtual⟩ : RemapEntry) ∈ entries)
    {packet : Packet (BitVec 32)} (contains : range.contains packet.source = true) :
    postSource entries packet = virtual.renumber packet.source := by
  have translated : firstMatch (postPairs entries) packet.source =
      some (ipv4.netmap (blockText virtual) packet.source) := by
    refine firstMatch_eq (blockText range, blockText virtual) ?_ ?_ ?_
    · exact mem_postPairs.mpr ⟨entry, blockText_ne_nil range, blockText_ne_nil virtual⟩
    · rw [ipv4_member_blockText, contains]
    · rintro ⟨real, image⟩ other matched
      obtain ⟨other_entry, -⟩ := mem_postPairs.mp other
      obtain ⟨_, -, -, -, virtual_ok⟩ := (mem_entries advertise built).mp entry
      obtain ⟨otherRange, other_mem, -, real_eq, image_ok⟩ :=
        (mem_entries advertise built).mp other_entry
      simp only at real_eq image_ok matched virtual_ok
      rw [real_eq, ipv4_member_blockText] at matched
      obtain rfl := here.eq_of_contains in_ranges other_mem contains matched
      subst real_eq
      rw [virtual_ok, Outcome.ok.injEq] at image_ok
      rw [image_ok]
  rw [postSource_eq, translated, Option.getD_some, ipv4_netmap_blockText]

theorem postSource_of_apart {range : Block 32}
    (in_ranges : range ∈ here.ranges) (apart : ∀ there, others there → ¬ there.Meets range)
    {packet : Packet (BitVec 32)} (contains : range.contains packet.source = true) :
    postSource entries packet = packet.source := by
  have untouched : firstMatch (postPairs entries) packet.source = none := by
    refine firstMatch_eq_none fun pair mem => ?_
    obtain ⟨entry, -⟩ := mem_postPairs.mp mem
    obtain ⟨other, other_mem, ⟨there, is_other, meets⟩, real_eq, -⟩ :=
      (mem_entries advertise built).mp entry
    simp only at real_eq
    rw [real_eq, ipv4_member_blockText]
    by_contra matched
    rw [Bool.not_eq_false] at matched
    obtain rfl := here.eq_of_contains in_ranges other_mem contains matched
    exact apart there is_other meets
  rw [postSource_eq, untouched, Option.getD_none]

end

theorem preDestination_of_entry (disjoint : VirtualsDisjoint entries) {range virtual : Block 32}
    (entry : (⟨blockText range, blockText virtual⟩ : RemapEntry) ∈ entries)
    {packet : Packet (BitVec 32)} (contains : virtual.contains packet.destination = true) :
    preDestination entries packet = range.renumber packet.destination := by
  have translated : firstMatch (prePairs entries) packet.destination =
      some (ipv4.netmap (blockText range) packet.destination) := by
    refine firstMatch_eq (blockText virtual, blockText range) ?_ ?_ ?_
    · exact mem_prePairs.mpr ⟨entry, blockText_ne_nil range, blockText_ne_nil virtual⟩
    · rw [ipv4_member_blockText, contains]
    · rintro ⟨image, real⟩ other matched
      obtain ⟨other_entry, -⟩ := mem_prePairs.mp other
      by_contra differ
      refine disjoint _ other_entry _ entry ?_ packet.destination ⟨matched, ?_⟩
      · intro same
        obtain ⟨rfl, rfl⟩ := RemapEntry.mk.inj same
        exact differ rfl
      · rw [ipv4_member_blockText, contains]
  rw [preDestination_eq, translated, Option.getD_some, ipv4_netmap_blockText]

end Translation

/-- A packet leaves through the outbound rules of one cluster and enters another one. -/
def travel (sending receiving : List RemapEntry) (packet : Packet (BitVec 32)) :
    Packet (BitVec 32) :=
  let leaving := { packet with source := postSource sending packet }
  { leaving with destination := preDestination receiving leaving }

theorem allAdvertise_single {peer : MeshPeer} {there : Cluster}
    (advertises : Advertises peer there) :
    AllAdvertise [peer] (· = there) := by
  constructor
  · intro other mem
    obtain rfl := mem_singleton.mp mem
    exact ⟨there, rfl, advertises⟩
  · rintro _ rfl
    exact ⟨peer, mem_singleton_self peer, advertises⟩

/-- A packet to the virtual image of an address arrives there under the sender's virtual range, and
the reply arrives back as it was sent. -/
def RoundTrips (entriesA entriesB : List RemapEntry) (rangeA rangeB : Block 32) : Prop :=
  ∃ virtualA virtualB : Block 32,
    (⟨blockText rangeA, blockText virtualA⟩ : RemapEntry) ∈ entriesA ∧
    (⟨blockText rangeB, blockText virtualB⟩ : RemapEntry) ∈ entriesB ∧
    ∀ x y, rangeA.contains x = true → rangeB.contains y = true →
    ∀ packet reply : Packet (BitVec 32), packet.source = x →
      packet.destination = virtualB.renumber y →
      reply.source = y → reply.destination = (travel entriesA entriesB packet).source →
      virtualA.contains (travel entriesA entriesB packet).source = true ∧
      (travel entriesA entriesB packet).destination = y ∧
      (travel entriesB entriesA reply).source = virtualB.renumber y ∧
      (travel entriesB entriesA reply).destination = x

/-- The four translations between two clusters with overlapping ranges cancel pairwise. -/
theorem netmap_round_trip (pool : Str) (a b : Cluster) (peerB peerA : MeshPeer)
    (advertises_b : Advertises peerB b) (advertises_a : Advertises peerA a)
    (entriesA entriesB : List RemapEntry)
    (built_a : (a.agent pool).remap.buildEntries [peerB] = .ok entriesA)
    (built_b : (b.agent pool).remap.buildEntries [peerA] = .ok entriesB)
    (disjoint_a : VirtualsDisjoint entriesA) (disjoint_b : VirtualsDisjoint entriesB)
    (rangeA rangeB : Block 32) (in_a : rangeA ∈ a.ranges) (in_b : rangeB ∈ b.ranges)
    (meets_a : b.Meets rangeA) (meets_b : a.Meets rangeB) :
    RoundTrips entriesA entriesB rangeA rangeB := by
  have advertise_b := allAdvertise_single advertises_b
  have advertise_a := allAdvertise_single advertises_a
  obtain ⟨_, virtualA, -, -, len_a, entry_a⟩ := exists_entry advertise_b built_a in_a rfl meets_a
  obtain ⟨_, virtualB, -, -, len_b, entry_b⟩ := exists_entry advertise_a built_b in_b rfl meets_b
  refine ⟨virtualA, virtualB, entry_a, entry_b, ?_⟩
  rintro x y x_in y_in packet reply rfl to_image rfl reply_to
  have sent : (travel entriesA entriesB packet).source = virtualA.renumber packet.source :=
    postSource_of_entry advertise_b built_a in_a entry_a x_in
  have returned : (travel entriesB entriesA reply).source = virtualB.renumber reply.source :=
    postSource_of_entry advertise_a built_b in_b entry_b y_in
  refine ⟨?_, ?_, returned, ?_⟩
  · rw [sent]
    exact virtualA.contains_renumber _
  · refine (preDestination_of_entry disjoint_b entry_b ?_).trans ?_
    · change virtualB.contains packet.destination = true
      rw [to_image]
      exact virtualB.contains_renumber _
    · change rangeB.renumber packet.destination = reply.source
      rw [to_image, Block.renumber_renumber rangeB virtualB len_b.symm y_in]
  · refine (preDestination_of_entry disjoint_a entry_a ?_).trans ?_
    · change virtualA.contains reply.destination = true
      rw [reply_to, sent]
      exact virtualA.contains_renumber _
    · change rangeA.renumber reply.destination = packet.source
      rw [reply_to, sent, Block.renumber_renumber rangeA virtualA len_a.symm x_in]

/-- A block of length 16. -/
def sixteenBits (base : BitVec 32) (aligned : base &&& mask 32 16 = base) : Block 32 where
  base := base
  len := 16
  len_le := by decide
  aligned := aligned

/-- The usual range of pods. -/
def podRange : Block 32 := sixteenBits 0x0af40000#32 (by decide)

/-- A cluster that uses the default pod range. -/
def podCluster (id : Str) : Cluster where
  id := id
  ranges := [podRange]
  safe := by decide +kernel
  disjoint := pairwise_singleton _ _

theorem advertises_peerOf (cluster : Cluster) :
    Advertises (peerOf cluster.id cluster.locals) cluster := by
  refine ⟨rfl, (by decide : str "key" ≠ []), fun text => ?_⟩
  simp [MeshPeerSpec.allCIDRs, peerOf]

theorem virtualsDisjoint_singleton (entry : RemapEntry) : VirtualsDisjoint [entry] := by
  intro left in_left right in_right differ
  rw [mem_singleton] at in_left in_right
  exact absurd (in_left.trans in_right.symm) differ

theorem netmap_round_trip_pods :
    RoundTrips [⟨"10.244.0.0/16", "172.18.0.0/16"⟩]
      [⟨"10.244.0.0/16", "172.19.0.0/16"⟩] podRange podRange := by
  have meets : ∀ id, (podCluster id).Meets podRange :=
    fun id => ⟨podRange, mem_singleton_self _, by decide⟩
  exact netmap_round_trip defaultRemapPool (podCluster "cluster-a")
    (podCluster "cluster-b") _ _ (advertises_peerOf _) (advertises_peerOf _) _ _
    (by decide +kernel) (by decide +kernel) (virtualsDisjoint_singleton _)
    (virtualsDisjoint_singleton _) podRange podRange (mem_singleton_self _)
    (mem_singleton_self _) (meets _) (meets _)

end DatawerxMesh.Mesh
