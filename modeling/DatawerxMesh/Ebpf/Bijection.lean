import DatawerxMesh.Ebpf.Backends

/-!
# Remap entries as a bijection

Entries with disjoint real ranges and disjoint virtual ranges translate addresses back and forth
without loss, in the maps and in the chains.
-/

namespace DatawerxMesh.Ebpf

open Go Addressing Program PrefixTable NatPlane Netfilter List

variable {entries : List RemapEntry}

theorem mem_dottedRules_post {rule : Block 32 × Block 32} :
    rule ∈ dottedRules (postPairs entries) ↔
      ∃ entry ∈ entries, parseNet entry.real = some (.four rule.1) ∧
        parseNet entry.virtual = some (.four rule.2) := by
  have nonempty : ∀ {text : Str} {block}, parseNet text = some (.four block) → text ≠ [] := by
    rintro text block parsed rfl
    cases parsed.symm.trans (by decide : parseNet [] = none)
  rw [mem_dottedRules]
  constructor
  · rintro ⟨⟨real, virtual⟩, mem, pair_eq⟩
    exact ⟨⟨real, virtual⟩, (mem_postPairs.mp mem).1, dottedPair_eq_some.mp pair_eq⟩
  · rintro ⟨entry, mem, real_eq, virtual_eq⟩
    exact ⟨(entry.real, entry.virtual),
      mem_postPairs.mpr ⟨mem, nonempty real_eq, nonempty virtual_eq⟩,
      dottedPair_eq_some.mpr ⟨real_eq, virtual_eq⟩⟩

theorem dottedPair_swap (pair : Str × Str) :
    dottedPair pair.swap = (dottedPair pair).map Prod.swap := by
  ext ⟨source, image⟩
  rw [dottedPair_eq_some, Option.map_eq_some_iff]
  constructor
  · rintro ⟨source_eq, image_eq⟩
    exact ⟨(image, source), dottedPair_eq_some.mpr ⟨image_eq, source_eq⟩, rfl⟩
  · rintro ⟨⟨image', source'⟩, pair_eq, same⟩
    obtain ⟨rfl, rfl⟩ := Prod.mk.inj same
    exact (dottedPair_eq_some.mp pair_eq).symm

theorem dottedRules_pre (entries : List RemapEntry) :
    dottedRules (prePairs entries) = (dottedRules (postPairs entries)).map Prod.swap := by
  have pairs_eq : prePairs entries = (postPairs entries).map Prod.swap := by
    rw [postPairs, map_map]
    rfl
  rw [pairs_eq, dottedRules, dottedRules, filterMap_map, map_filterMap]
  exact filterMap_congr fun pair _ => dottedPair_swap pair

variable (field : RemapEntry → Str)

/-- A field of the entries names ranges without common addresses. -/
def RangesApart (entries : List RemapEntry) : Prop :=
  ∀ left ∈ entries, ∀ right ∈ entries, left ≠ right → ∀ leftBlock rightBlock,
    parseNet (field left) = some (.four leftBlock) →
    parseNet (field right) = some (.four rightBlock) → leftBlock.Disjoint rightBlock

/-- The field holds one side of a rule. -/
def Names (side : Block 32 × Block 32 → Block 32) : Prop :=
  ∀ entry rule, parseNet entry.real = some (.four rule.1) →
    parseNet entry.virtual = some (.four rule.2) → parseNet (field entry) = some (.four (side rule))

theorem names_real : Names RemapEntry.real Prod.fst := fun _ _ real_eq _ => real_eq

theorem names_virtual : Names RemapEntry.virtual Prod.snd := fun _ _ _ virtual_eq => virtual_eq

variable {field : RemapEntry → Str}

theorem rule_eq_of_shared {side : Block 32 × Block 32 → Block 32} (named : Names field side)
    (apart : RangesApart field entries) {left right : Block 32 × Block 32}
    (left_mem : left ∈ dottedRules (postPairs entries))
    (right_mem : right ∈ dottedRules (postPairs entries)) {address : BitVec 32}
    (in_left : (side left).contains address = true)
    (in_right : (side right).contains address = true) : left = right := by
  obtain ⟨entry, mem, real_eq, virtual_eq⟩ := mem_dottedRules_post.mp left_mem
  obtain ⟨entry', member', real_eq', virtual_eq'⟩ := mem_dottedRules_post.mp right_mem
  by_cases same : entry = entry'
  · subst same
    refine Prod.ext ?_ ?_
    · exact IPNet.four.inj (Option.some.inj (real_eq.symm.trans real_eq'))
    · exact IPNet.four.inj (Option.some.inj (virtual_eq.symm.trans virtual_eq'))
  · exact absurd ⟨in_left, in_right⟩ (apart entry mem entry' member' same _ _
      (named entry left real_eq virtual_eq) (named entry' right real_eq' virtual_eq') address)

theorem rules_apart_post (apart : RangesApart RemapEntry.real entries) :
    Apart (dottedRules (postPairs entries)) :=
  fun _ left_mem _ right_mem _ => rule_eq_of_shared names_real apart left_mem right_mem

theorem rules_apart_pre (apart : RangesApart RemapEntry.virtual entries) :
    Apart (dottedRules (prePairs entries)) := by
  rw [dottedRules_pre]
  intro left left_mem right right_mem address in_left in_right
  obtain ⟨left, left_rule, rfl⟩ := mem_map.mp left_mem
  obtain ⟨right, right_rule, rfl⟩ := mem_map.mp right_mem
  exact congrArg Prod.swap
    (rule_eq_of_shared names_virtual apart left_rule right_rule in_left in_right)

section

variable {entries : List MapEntry} {pairs : List (Str × Str)} (held : HoldAll entries pairs)
  (apart : Apart (dottedRules pairs))

include held apart

theorem HoldAll.translates :
    Translates (dottedRules pairs) (rewriteBy entries) := by
  constructor
  · intro rule mem address here
    rw [rewriteBy]
    cases found : lookup (contents entries) address with
    | none =>
      have missed := held.not_contains_of_lookup found mem
      exact absurd here (by simp [Block.addresses, missed])
    | some rewrite =>
      obtain ⟨longest, ⟨longest_mem, contains, -⟩, image_eq⟩ := held.longest_of_lookup found
      obtain rfl := apart longest longest_mem rule mem address contains here
      rw [Option.map_some, Option.getD_some, image_eq]
  · intro address unmatched
    rw [rewriteBy]
    cases found : lookup (contents entries) address with
    | none => rfl
    | some rewrite =>
      obtain ⟨longest, ⟨longest_mem, contains, -⟩, -⟩ := held.longest_of_lookup found
      exact absurd contains (unmatched longest longest_mem)

theorem HoldAll.translates_chain :
    Translates (dottedRules pairs) fun address =>
      (NatPlane.firstMatch pairs address).getD address := by
  simp only [held.firstMatch_eq]
  exact translates_firstMatch apart

end

/-- The addresses that a field covers. -/
def namedAddresses (field : RemapEntry → Str) (entries : List RemapEntry) : Set (BitVec 32) :=
  {address | ∃ entry ∈ entries, ∃ block, parseNet (field entry) = some (.four block) ∧
    address ∈ block.addresses}

/-- Every real range is moved onto its virtual range and back with its host bits, the functions undo
each other, and other addresses stay. -/
structure RemapBijection (entries : List RemapEntry) (egress ingress : BitVec 32 → BitVec 32) :
    Prop where
  onto : ∀ entry ∈ entries, ∀ real virtual, parseNet entry.real = some (.four real) →
    parseNet entry.virtual = some (.four virtual) →
      Set.BijOn egress real.addresses virtual.addresses ∧
      Set.BijOn ingress virtual.addresses real.addresses
  hostBits : ∀ entry ∈ entries, ∀ real virtual, parseNet entry.real = some (.four real) →
    parseNet entry.virtual = some (.four virtual) → real.len = virtual.len ∧
      (∀ address ∈ real.addresses,
        egress address &&& ~~~mask 32 real.len = address &&& ~~~mask 32 real.len) ∧
      ∀ address ∈ virtual.addresses,
        ingress address &&& ~~~mask 32 real.len = address &&& ~~~mask 32 real.len
  inverse : Set.InvOn ingress egress (namedAddresses RemapEntry.real entries)
    (namedAddresses RemapEntry.virtual entries)
  egress_fixed : ∀ address ∉ namedAddresses RemapEntry.real entries, egress address = address
  ingress_fixed : ∀ address ∉ namedAddresses RemapEntry.virtual entries, ingress address = address

/-- The texts of an entry are dotted IPv4 ranges. -/
def DottedEntry (entry : RemapEntry) : Prop :=
  (∃ block, parseNet entry.real = some (.four block)) ∧
    ∃ block, parseNet entry.virtual = some (.four block)

theorem mem_namedAddresses {side : Block 32 × Block 32 → Block 32} (named : Names field side)
    (dotted : ∀ entry ∈ entries, DottedEntry entry) {address : BitVec 32} :
    address ∈ namedAddresses field entries ↔
      ∃ rule ∈ dottedRules (postPairs entries), address ∈ (side rule).addresses := by
  constructor
  · rintro ⟨entry, mem, block, block_eq, here⟩
    obtain ⟨⟨real, real_eq⟩, virtual, virtual_eq⟩ := dotted entry mem
    refine ⟨(real, virtual), mem_dottedRules_post.mpr ⟨entry, mem, real_eq, virtual_eq⟩, ?_⟩
    have side_eq := named entry (real, virtual) real_eq virtual_eq
    obtain rfl := IPNet.four.inj (Option.some.inj (block_eq.symm.trans side_eq))
    exact here
  · rintro ⟨rule, rule_mem, here⟩
    obtain ⟨entry, mem, real_eq, virtual_eq⟩ := mem_dottedRules_post.mp rule_mem
    exact ⟨entry, mem, side rule, named entry rule real_eq virtual_eq, here⟩

theorem remapBijection_of_translates
    {egress ingress : BitVec 32 → BitVec 32} (dotted : ∀ entry ∈ entries, DottedEntry entry)
    (same_len : ∀ rule ∈ dottedRules (postPairs entries), rule.1.len = rule.2.len)
    (out : Translates (dottedRules (postPairs entries)) egress)
    (back : Translates ((dottedRules (postPairs entries)).map Prod.swap) ingress) :
    RemapBijection entries egress ingress := by
  have rule_of : ∀ {entry real virtual}, entry ∈ entries → parseNet entry.real = some (.four real) →
      parseNet entry.virtual = some (.four virtual) →
        (real, virtual) ∈ dottedRules (postPairs entries) :=
    fun mem real_eq virtual_eq => mem_dottedRules_post.mpr ⟨_, mem, real_eq, virtual_eq⟩
  have swapped : ∀ rule ∈ dottedRules (postPairs entries),
      rule.swap ∈ (dottedRules (postPairs entries)).map Prod.swap :=
    fun rule rule_mem => mem_map.mpr ⟨rule, rule_mem, rfl⟩
  constructor
  · intro entry mem real virtual real_eq virtual_eq
    have rule_mem := rule_of mem real_eq virtual_eq
    have len_eq : real.len = virtual.len := same_len _ rule_mem
    exact ⟨out.bijOn rule_mem len_eq, back.bijOn (swapped _ rule_mem) len_eq.symm⟩
  · intro entry mem real virtual real_eq virtual_eq
    have rule_mem := rule_of mem real_eq virtual_eq
    have len_eq : real.len = virtual.len := same_len _ rule_mem
    refine ⟨len_eq, fun address here => ?_, fun address here => ?_⟩
    · rw [out.inside _ rule_mem address here, len_eq]
      exact virtual.renumber_host address
    · rw [back.inside _ (swapped _ rule_mem) address here]
      exact real.renumber_host address
  · constructor
    · intro address named
      exact out.leftInvOn back swapped same_len ((mem_namedAddresses names_real dotted).mp named)
    · intro address named
      obtain ⟨rule, rule_mem, here⟩ := (mem_namedAddresses names_virtual dotted).mp named
      refine back.leftInvOn out ?_ ?_ ⟨rule.swap, swapped rule rule_mem, here⟩
      · rw [forall_mem_map]
        exact fun rule rule_mem => rule_mem
      · rw [forall_mem_map]
        exact fun rule rule_mem => (same_len rule rule_mem).symm
  · intro address unnamed
    refine out.outside address fun rule rule_mem here => unnamed ?_
    exact (mem_namedAddresses names_real dotted).mpr ⟨rule, rule_mem, here⟩
  · intro address unnamed
    refine back.outside address fun rule rule_mem here => unnamed ?_
    obtain ⟨rule, in_rules, rfl⟩ := mem_map.mp rule_mem
    exact (mem_namedAddresses names_virtual dotted).mpr ⟨rule, in_rules, here⟩

/-- For accepted entries whose ranges are apart, the maps are a bijection between the real and the
virtual addresses, and so are the chains, whatever else a packet has. -/
theorem remap_bijective (entries : List RemapEntry) (sorter : Sorter) (maps : RemapMaps)
    (dotted : ∀ entry ∈ entries, DottedEntry entry)
    (accepted : buildRemapMaps sorter entries = .ok maps)
    (reals_apart : RangesApart RemapEntry.real entries)
    (virtuals_apart : RangesApart RemapEntry.virtual entries) :
    RemapBijection entries (rewriteBy maps.egress) (rewriteBy maps.ingress) ∧
    ∀ packet : Packet (BitVec 32), RemapBijection entries
      (fun address => postSource entries { packet with source := address })
      (fun address => preDestination entries { packet with destination := address }) := by
  obtain ⟨collected, collected_ok, rfl⟩ := buildRemapMaps_eq_ok.mp accepted
  obtain ⟨held_in, held_out⟩ := holdAll_of_collectMaps collected_ok
  have same_len := held_out.same_len
  have out_apart := rules_apart_post reals_apart
  have back_apart := rules_apart_pre virtuals_apart
  refine ⟨remapBijection_of_translates dotted same_len ?_ ?_,
    fun packet => remapBijection_of_translates dotted same_len ?_ ?_⟩
  · exact (held_out.perm (sorter.perm _)).translates out_apart
  · rw [← dottedRules_pre]
    exact (held_in.perm (sorter.perm _)).translates back_apart
  · simp only [postSource_eq]
    exact held_out.translates_chain out_apart
  · rw [← dottedRules_pre]
    simp only [preDestination_eq]
    exact held_in.translates_chain back_apart

theorem rangesApart_pair {first second : RemapEntry} {firstBlock secondBlock : Block 32}
    (first_eq : parseNet (field first) = some (.four firstBlock))
    (second_eq : parseNet (field second) = some (.four secondBlock))
    (apart : firstBlock.overlaps secondBlock = false) : RangesApart field [first, second] := by
  have disjoint := (Block.disjoint_iff_not_overlaps _ _).mpr apart
  have cases_of : ∀ entry ∈ [first, second], entry = first ∨ entry = second := by simp
  intro left left_mem right right_mem differ leftBlock rightBlock left_eq right_eq
  rcases cases_of left left_mem with rfl | rfl
  · rcases cases_of right right_mem with rfl | rfl
    · exact absurd rfl differ
    · cases Option.some.inj (left_eq.symm.trans first_eq)
      cases Option.some.inj (right_eq.symm.trans second_eq)
      exact disjoint
  · rcases cases_of right right_mem with rfl | rfl
    · cases Option.some.inj (left_eq.symm.trans second_eq)
      cases Option.some.inj (right_eq.symm.trans first_eq)
      exact disjoint.symm
    · exact absurd rfl differ

/-- A pod range whose text has host bits. -/
def looseEntry : RemapEntry := ⟨"10.244.7.9/16", "172.18.0.0/16"⟩

/-- A range whose virtual range is in another block of the pool. -/
def nodeEntry : RemapEntry := ⟨"10.96.24.0/24", "172.20.24.0/24"⟩

theorem remap_bijective_loose :
    (buildRemapMaps stableSorter [looseEntry, nodeEntry]).isOk = true ∧
      ∀ maps, buildRemapMaps stableSorter [looseEntry, nodeEntry] = .ok maps →
        RemapBijection [looseEntry, nodeEntry] (rewriteBy maps.egress)
          (rewriteBy maps.ingress) := by
  have loose_real : parseNet looseEntry.real =
      some (.four (.around 0x0AF40709 16 (by decide))) := by decide +kernel
  have loose_virtual : parseNet looseEntry.virtual =
      some (.four (.around 0xAC120000 16 (by decide))) := by decide +kernel
  have node_real : parseNet nodeEntry.real =
      some (.four (.around 0x0A601800 24 (by decide))) := by decide +kernel
  have node_virtual : parseNet nodeEntry.virtual =
      some (.four (.around 0xAC141800 24 (by decide))) := by decide +kernel
  refine ⟨by decide +kernel, fun maps accepted => (remap_bijective [looseEntry, nodeEntry]
    stableSorter maps ?_ accepted (rangesApart_pair loose_real node_real (by decide))
    (rangesApart_pair loose_virtual node_virtual (by decide))).1⟩
  simp only [forall_mem_cons]
  exact ⟨⟨⟨_, loose_real⟩, _, loose_virtual⟩, ⟨⟨_, node_real⟩, _, node_virtual⟩, by simp⟩

end DatawerxMesh.Ebpf
