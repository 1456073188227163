import DatawerxMesh.Ebpf.Maps

/-!
# The two remap backends

The eBPF maps decide an address by its longest key, the netfilter chains by their first rule.  They
differ exactly where a range is shadowed by an earlier, wider rule.
-/

namespace DatawerxMesh.Ebpf

open Go Addressing Program PrefixTable NatPlane Netfilter Option

variable {pairs : List (Str × Str)}

/-- The blocks of a range pair, when both texts are dotted. -/
def dottedPair (pair : Str × Str) : Option (Block 32 × Block 32) :=
  match parseNet pair.1, parseNet pair.2 with
  | some (.four source), some (.four image) => some (source, image)
  | _, _ => none

/-- The pairs that IPv4 addresses can match, in order. -/
def dottedRules (pairs : List (Str × Str)) : List (Block 32 × Block 32) :=
  pairs.filterMap dottedPair

/-- A pair of dotted ranges of one size, or one whose key is longer than any IPv4 address. -/
def Holds (entry : MapEntry) (pair : Str × Str) : Prop :=
  (∃ source image, dottedPair pair = some (source, image) ∧ source.len = image.len ∧
    entry.key = keyOf source ∧ entry.val = ⟨image.base, image.len⟩ ∧
    entry.keyCIDR = blockText source) ∨
  ((∀ block, parseNet pair.1 ≠ some (.four block)) ∧ 32 < entry.key.len)

/-- The entries hold exactly the given range pairs. -/
def HoldAll (entries : List MapEntry) (pairs : List (Str × Str)) : Prop :=
  (∀ entry ∈ entries, ∃ pair ∈ pairs, Holds entry pair) ∧
    ∀ pair ∈ pairs, ∃ entry ∈ entries, Holds entry pair

theorem dottedPair_eq_some {pair : Str × Str} {source image : Block 32} :
    dottedPair pair = some (source, image) ↔
      parseNet pair.1 = some (.four source) ∧ parseNet pair.2 = some (.four image) := by
  unfold dottedPair
  split
  · rename_i left right source_eq image_eq
    simp [source_eq, image_eq]
  · rename_i other
    simp only [reduceCtorEq, false_iff, not_and]
    exact fun source_eq image_eq => other source image source_eq image_eq

theorem key_of_parseV4Prefix {cidr text : Str} {key : TrieKey}
    (parsed : parseV4Prefix cidr = .ok (key, text)) :
    (∃ block, parseNet cidr = some (.four block) ∧ key = keyOf block ∧ text = blockText block) ∨
      (∃ block, parseNet cidr = some (.sixteen block)) ∧ 96 ≤ key.len := by
  rw [parseV4Prefix] at parsed
  split at parsed
  · cases parsed
  · rename_i ip net cidr_eq
    have net_eq : parseNet cidr = some net := by rw [parseNet, cidr_eq, map_some]
    split at parsed
    · rename_i base _ base_eq
      obtain ⟨rfl, rfl⟩ := parsed
      cases net with
      | four block =>
        obtain rfl := Option.some.inj base_eq
        exact Or.inl ⟨block, net_eq, rfl, IPNet.string_of_block4 (IPNet.block4_four block)⟩
      | sixteen block => exact Or.inr ⟨⟨block, net_eq⟩, len_of_unmap base_eq⟩
    · cases parsed

theorem holds_of_mapEntries {entry : RemapEntry} {ingress egress : MapEntry}
    (mapped : mapEntries entry = .ok (ingress, egress)) :
    Holds ingress (entry.virtual, entry.real) ∧ Holds egress (entry.real, entry.virtual) := by
  obtain ⟨⟨realKey, realCIDR⟩, real_ok, mapped⟩ := Outcome.bind_eq_ok.mp mapped
  obtain ⟨⟨virtKey, virtCIDR⟩, virt_ok, mapped⟩ := Outcome.bind_eq_ok.mp mapped
  rw [Outcome.mapErr_eq_ok] at real_ok virt_ok
  by_cases same_len : realKey.len = virtKey.len
  · simp only [ne_eq, same_len] at mapped
    obtain ⟨rfl, rfl⟩ := mapped
    rcases key_of_parseV4Prefix real_ok with
      ⟨real, real_eq, rfl, rfl⟩ | ⟨⟨real, real_eq⟩, real_long⟩ <;>
    rcases key_of_parseV4Prefix virt_ok with
      ⟨virt, virt_eq, rfl, rfl⟩ | ⟨⟨virt, virt_eq⟩, virt_long⟩
    · have same : real.len = virt.len := same_len
      refine ⟨Or.inl ⟨virt, real, dottedPair_eq_some.mpr ⟨virt_eq, real_eq⟩, same.symm,
        rfl, ?_, rfl⟩,
        Or.inl ⟨real, virt, dottedPair_eq_some.mpr ⟨real_eq, virt_eq⟩, same, rfl, rfl, rfl⟩⟩
      rw [← same_len]
      rfl
    · have short : (keyOf real).len ≤ 32 := real.len_le
      omega
    · have short : (keyOf virt).len ≤ 32 := virt.len_le
      omega
    · refine ⟨Or.inr ⟨?_, Nat.lt_of_lt_of_le (by decide) virt_long⟩,
        Or.inr ⟨?_, Nat.lt_of_lt_of_le (by decide) real_long⟩⟩
      · simp [virt_eq]
      · simp [real_eq]
  · simp [same_len] at mapped

theorem holdAll_of_collectMaps {entries : List RemapEntry} {maps : RemapMaps}
    (collected : collectMaps entries = .ok maps) :
    HoldAll maps.ingress (prePairs entries) ∧ HoldAll maps.egress (postPairs entries) := by
  obtain ⟨pairs, mapped, maps_eq⟩ := Outcome.bind_eq_ok.mp collected
  obtain rfl := Outcome.ok.inj maps_eq
  let unset : MapEntry := ⟨⟨0, 0⟩, ⟨0, 0⟩, [], []⟩
  obtain ⟨all, rfl⟩ := (Outcome.mapM_eq_ok mapEntries (unset, unset) _ pairs).mp mapped
  have each : ∀ entry ∈ remapOrder entries,
      Holds ((mapEntries entry).getD (unset, unset)).1 (entry.virtual, entry.real) ∧
        Holds ((mapEntries entry).getD (unset, unset)).2 (entry.real, entry.virtual) := by
    intro entry mem
    obtain ⟨⟨ingress, egress⟩, mapped⟩ := all entry ((Sorting.mem_sort _).mp mem)
    rw [mapped]
    exact holds_of_mapEntries mapped
  have mem_iff : ∀ entry, entry ∈ (entries.filter fun entry =>
      !(entry.real == [] || entry.virtual == [])).eraseDups ↔ entry ∈ remapOrder entries :=
    fun entry => (Sorting.mem_sort _).symm
  simp only [HoldAll, prePairs, postPairs, List.mem_map, forall_exists_index, and_imp,
    forall_apply_eq_imp_iff₂, exists_exists_and_eq_and, mem_iff]
  exact ⟨⟨fun entry mem => ⟨entry, mem, (each entry mem).1⟩,
      fun entry mem => ⟨entry, mem, (each entry mem).1⟩⟩,
    ⟨fun entry mem => ⟨entry, mem, (each entry mem).2⟩,
      fun entry mem => ⟨entry, mem, (each entry mem).2⟩⟩⟩

theorem HoldAll.perm {entries other : List MapEntry} (held : HoldAll entries pairs)
    (perm : other.Perm entries) : HoldAll other pairs := by
  obtain ⟨sound, complete⟩ := held
  refine ⟨fun entry mem => sound entry (perm.mem_iff.mp mem), fun pair mem => ?_⟩
  obtain ⟨entry, mem, holds⟩ := complete pair mem
  exact ⟨entry, perm.mem_iff.mpr mem, holds⟩

section Direction

variable {entries : List MapEntry} {pairs : List (Str × Str)} {rule : Block 32 × Block 32}

theorem mem_dottedRules : rule ∈ dottedRules pairs ↔ ∃ pair ∈ pairs, dottedPair pair = some rule :=
  List.mem_filterMap

variable (held : HoldAll entries pairs)

include held

theorem HoldAll.rule_of_mem {entry : MapEntry}
    (mem : entry ∈ entries) (short : entry.key.len ≤ 32) :
    ∃ rule ∈ dottedRules pairs, rule.1.len = rule.2.len ∧ entry.key = keyOf rule.1 ∧
      entry.val = ⟨rule.2.base, rule.2.len⟩ ∧ entry.keyCIDR = blockText rule.1 := by
  obtain ⟨pair, pair_mem,
      ⟨source, image, pair_eq, same_len, key_eq, val_eq, text_eq⟩ | ⟨-, long⟩⟩ :=
    held.1 entry mem
  · exact ⟨(source, image), mem_dottedRules.mpr ⟨pair, pair_mem, pair_eq⟩, same_len, key_eq, val_eq,
      text_eq⟩
  · omega

theorem HoldAll.entry_of_rule (mem : rule ∈ dottedRules pairs) :
    ∃ entry ∈ entries, rule.1.len = rule.2.len ∧ entry.key = keyOf rule.1 ∧
      entry.val = ⟨rule.2.base, rule.2.len⟩ ∧ entry.keyCIDR = blockText rule.1 := by
  obtain ⟨pair, pair_mem, pair_eq⟩ := mem_dottedRules.mp mem
  obtain ⟨entry, entry_mem, ⟨source, image, pair_eq', shown⟩ | ⟨not_dotted, -⟩⟩ :=
    held.2 pair pair_mem
  · obtain rfl := Option.some.inj (pair_eq.symm.trans pair_eq')
    exact ⟨entry, entry_mem, shown⟩
  · exact absurd (dottedPair_eq_some.mp pair_eq).1 (not_dotted _)

theorem HoldAll.same_len : ∀ rule ∈ dottedRules pairs, rule.1.len = rule.2.len := by
  intro rule mem
  obtain ⟨-, -, same, -⟩ := held.entry_of_rule mem
  exact same

theorem HoldAll.firstMatch_eq (address : BitVec 32) :
    NatPlane.firstMatch pairs address = PrefixTable.firstMatch (dottedRules pairs) address := by
  have dotted : ∀ pair ∈ pairs, (∃ rule, dottedPair pair = some rule) ∨
      ∀ block, parseNet pair.1 ≠ some (.four block) := by
    intro pair mem
    obtain ⟨entry, -, ⟨source, image, pair_eq, -⟩ | ⟨not_dotted, -⟩⟩ := held.2 pair mem
    · exact Or.inl ⟨_, pair_eq⟩
    · exact Or.inr not_dotted
  clear held
  induction pairs with
  | nil => rfl
  | cons pair rest ih =>
    have rest_eq := ih fun other mem => dotted other (List.mem_cons_of_mem _ mem)
    rw [NatPlane.firstMatch, PrefixTable.firstMatch] at rest_eq ⊢
    rw [List.find?_cons, dottedRules, List.filterMap_cons]
    rcases dotted pair List.mem_cons_self with ⟨⟨source, image⟩, pair_eq⟩ | not_dotted
    · obtain ⟨source_eq, image_eq⟩ := dottedPair_eq_some.mp pair_eq
      have member_eq : ipv4.member pair.1 address = source.contains address := by
        simp [ipv4, source_eq]
      have netmap_eq : ipv4.netmap pair.2 address = image.renumber address := by
        simp [ipv4, image_eq]
      rw [pair_eq, member_eq, List.find?_cons]
      cases source.contains address with
      | true => simp [netmap_eq]
      | false => simpa [dottedRules] using rest_eq
    · have unmatched : ipv4.member pair.1 address = false := by
        rw [← Bool.not_eq_true, ipv4_member_iff]
        rintro ⟨block, parsed, -⟩
        exact not_dotted block parsed
      have skipped : dottedPair pair = none := by
        rw [eq_none_iff_forall_ne_some]
        exact fun rule pair_eq => not_dotted _ (dottedPair_eq_some.mp pair_eq).1
      rw [unmatched, skipped]
      exact rest_eq

/-- A map finds the image under one of the longest rules around an address. -/
theorem HoldAll.longest_of_lookup {address : BitVec 32}
    {rewrite : Rewrite} (found : lookup (contents entries) address = some rewrite) :
    ∃ rule, Longest (dottedRules pairs) address rule ∧
      rewrite.apply address = rule.2.renumber address := by
  obtain ⟨len, len_le, present, none_longer⟩ := lookupFrom_eq_some.mp found
  obtain ⟨before, after, split, -⟩ := writeAll_eq_some.mp present
  have written :
      (prefixOf address len, rewrite) ∈ entries.map fun entry => (entry.key, entry.val) := by
    rw [split]
    simp
  obtain ⟨entry, entry_mem, entry_eq⟩ := List.mem_map.mp written
  obtain ⟨key_eq, val_eq⟩ := Prod.mk.inj entry_eq
  have key_len : entry.key.len = len := by rw [key_eq]; rfl
  obtain ⟨rule, rule_mem, -, rule_key, rule_val, -⟩ := held.rule_of_mem entry_mem (by omega)
  have rule_len : rule.1.len = len := by rw [← key_len, rule_key]; rfl
  refine ⟨rule, ⟨rule_mem, ?_, fun other other_mem contains => ?_⟩, ?_⟩
  · rw [← prefixOf_eq_keyOf_iff, rule_len, ← key_eq, rule_key]
  · by_contra longer
    obtain ⟨held_by, held_mem, -, held_key, -⟩ := held.entry_of_rule other_mem
    have absent := none_longer other.1.len (by omega) other.1.len_le
    refine writeAll_eq_none.mp absent (held_by.key, held_by.val)
      (List.mem_map_of_mem (f := fun entry => (entry.key, entry.val)) held_mem) ?_
    rw [held_key, (prefixOf_eq_keyOf_iff other.1 address).mpr contains]
  · rw [← val_eq, rule_val]
    rfl

theorem HoldAll.not_contains_of_lookup {address : BitVec 32}
    (absent : lookup (contents entries) address = none) (mem : rule ∈ dottedRules pairs) :
    rule.1.contains address = false := by
  rw [← Bool.not_eq_true]
  intro contains
  obtain ⟨entry, entry_mem, -, key_eq, -⟩ := held.entry_of_rule mem
  refine writeAll_eq_none.mp (lookupFrom_eq_none.mp absent rule.1.len rule.1.len_le)
    (entry.key, entry.val)
    (List.mem_map_of_mem (f := fun entry => (entry.key, entry.val)) entry_mem) ?_
  rw [key_eq, (prefixOf_eq_keyOf_iff rule.1 address).mpr contains]

end Direction

theorem lessKey_orders : Sorting.Orders lessKey MapEntry.keyCIDR := less_orders.onField

/-- A sort that puts one entry behind all others with its key. -/
def sorterWithLast (last : MapEntry) : Sorter where
  run entries := Sorting.sort lessKey
    (if last ∈ entries then entries.erase last ++ [last] else entries)
  perm entries := by
    refine (Sorting.sort_perm _ _).trans ?_
    split
    · rename_i mem
      exact (List.perm_append_singleton _ _).trans (List.perm_cons_erase mem).symm
    · exact List.Perm.refl _
  sorted _ := Sorting.sort_pairwise lessKey_orders _

variable {entries : List MapEntry}

/-- Each of the longest rules at an address can be the one that the map holds. -/
theorem HoldAll.exists_sorter (held : HoldAll entries pairs)
    {address : BitVec 32} {rule : Block 32 × Block 32}
    (longest : Longest (dottedRules pairs) address rule) :
    ∃ sorter : Sorter, lookup (contents (sorter.run entries)) address =
      some ⟨rule.2.base, rule.2.len⟩ := by
  obtain ⟨rule_mem, contains, maximal⟩ := longest
  obtain ⟨entry, entry_mem, -, key_eq, val_eq, text_eq⟩ := held.entry_of_rule rule_mem
  let sorter := sorterWithLast entry
  have held_sorted := held.perm (sorter.perm entries)
  obtain ⟨before, after, sorted, greater⟩ :=
    Sorting.sort_append_singleton lessKey (entries.erase entry) entry
  have run_eq : sorter.run entries = before ++ entry :: after := by
    rw [← sorted]
    exact congrArg (Sorting.sort lessKey) (if_pos entry_mem)
  have key_at : prefixOf address rule.1.len = keyOf rule.1 :=
    (prefixOf_eq_keyOf_iff rule.1 address).mpr contains
  refine ⟨sorter, lookupFrom_eq_some.mpr ⟨rule.1.len, rule.1.len_le, ?_, ?_⟩⟩
  · -- No later entry has the key, as it would have the same text.
    rw [contents, writeAll_eq_some, key_at]
    refine ⟨before.map fun entry => (entry.key, entry.val),
      after.map fun entry => (entry.key, entry.val), ?_, ?_⟩
    · rw [run_eq, List.map_append, List.map_cons, key_eq, val_eq]
    · rw [List.forall_mem_map]
      intro other other_mem same_key
      replace same_key : other.key = keyOf rule.1 := same_key
      have short : other.key.len ≤ 32 := by rw [same_key]; exact rule.1.len_le
      have in_run : other ∈ sorter.run entries := by
        rw [run_eq]
        simp [other_mem]
      obtain ⟨rule', -, -, key', -, text'⟩ := held_sorted.rule_of_mem in_run short
      have same_rule : rule'.1 = rule.1 := keyOf_injective (key'.symm.trans same_key)
      have same_text : other.keyCIDR = entry.keyCIDR := by rw [text', same_rule, text_eq]
      have later := greater other other_mem
      rw [lessKey, same_text] at later
      cases later.symm.trans (lessKey_orders.irrefl entry)
  · intro longer lt le
    rw [contents, writeAll_eq_none, List.forall_mem_map]
    intro other other_mem same_key
    replace same_key : other.key = prefixOf address longer := same_key
    have len_eq : other.key.len = longer := by rw [same_key]; rfl
    obtain ⟨rule', rule'_mem, -, key', -⟩ := held_sorted.rule_of_mem other_mem (by omega)
    have rule_len : rule'.1.len = longer := by rw [← len_eq, key']; rfl
    have contains' : rule'.1.contains address = true := by
      rw [← prefixOf_eq_keyOf_iff, rule_len, ← same_key, key']
    have := maximal rule' rule'_mem contains'
    omega

/-- The first rule around a range that is longest somewhere translates it as its own rule does. -/
def OrderHarmless (pairs : List (Str × Str)) : Prop :=
  ∀ rule ∈ dottedRules pairs, Exposed (dottedRules pairs) rule.1 →
    ∀ first, firstAround (dottedRules pairs) rule.1 = some first →
      first.2.renumber rule.1.base = rule.2.base

theorem orderHarmless_of_disjoint (same_len : ∀ rule ∈ dottedRules pairs, rule.1.len = rule.2.len)
    (disjoint : ∀ left ∈ dottedRules pairs, ∀ right ∈ dottedRules pairs, left ≠ right →
      left.1.overlaps right.1 = false) : OrderHarmless pairs := by
  intro rule mem _ first around
  have first_mem := List.mem_of_find?_eq_some around
  have covers := List.find?_some around
  rw [Bool.and_eq_true] at covers
  obtain rfl : first = rule := by
    by_contra differ
    have apart := disjoint first first_mem rule mem differ
    rw [(Block.overlaps_iff _ _).mpr ⟨rule.1.base, covers.2, rule.1.contains_base⟩] at apart
    cases apart
  exact (Block.renumber_eq_iff (Nat.le_refl _) (same_len first mem).symm
    first.1.contains_base).mp rfl

theorem HoldAll.rewriteBy_eq_iff (held : HoldAll entries pairs) :
    (∀ (sorter : Sorter) (address : BitVec 32), rewriteBy (sorter.run entries) address =
      (NatPlane.firstMatch pairs address).getD address) ↔ OrderHarmless pairs := by
  have same_len := held.same_len
  simp only [held.firstMatch_eq]
  rw [OrderHarmless, ← firstMatch_eq_longest_iff same_len]
  constructor
  · intro agree address rule longest
    obtain ⟨sorter, found⟩ := held.exists_sorter longest
    have equal := agree sorter address
    rw [rewriteBy, found, map_some, getD_some] at equal
    have matched : (PrefixTable.firstMatch (dottedRules pairs) address).isSome := by
      rw [PrefixTable.firstMatch, isSome_map, List.find?_isSome]
      exact ⟨rule, longest.1, longest.2.1⟩
    obtain ⟨image, image_eq⟩ := isSome_iff_exists.mp matched
    rw [image_eq, getD_some] at equal
    rw [image_eq, ← equal]
    rfl
  · intro agree sorter address
    have held_sorted := held.perm (sorter.perm entries)
    rw [rewriteBy]
    cases found : lookup (contents (sorter.run entries)) address with
    | none =>
      have unmatched : PrefixTable.firstMatch (dottedRules pairs) address = none := by
        rw [PrefixTable.firstMatch, List.find?_eq_none.mpr, map_none]
        intro rule mem
        rw [held_sorted.not_contains_of_lookup found mem]
        decide
      rw [unmatched, map_none]
    | some rewrite =>
      obtain ⟨rule, longest, image_eq⟩ := held_sorted.longest_of_lookup found
      rw [agree address rule longest, map_some, getD_some, getD_some, image_eq]

theorem HoldAll.rewriteBy_of_unmatched (held : HoldAll entries pairs)
    {address : BitVec 32} (unmatched : ∀ pair ∈ pairs, ipv4.member pair.1 address = false) :
    rewriteBy entries address = address := by
  rw [rewriteBy]
  cases found : lookup (contents entries) address with
  | none => rfl
  | some rewrite =>
    obtain ⟨rule, ⟨mem, contains, -⟩, -⟩ := held.longest_of_lookup found
    obtain ⟨pair, pair_mem, pair_eq⟩ := mem_dottedRules.mp mem
    have matched : ipv4.member pair.1 address = true :=
      ipv4_member_iff.mpr ⟨rule.1, (dottedPair_eq_some.mp pair_eq).1, contains⟩
    rw [unmatched pair pair_mem] at matched
    cases matched

/-- The maps rewrite as the chains do, and packets outside all ranges are rewritten by neither. -/
def BackendsAgree (maps : RemapMaps) (entries : List RemapEntry) : Prop :=
  ∀ packet : Packet (BitVec 32),
    rewriteBy maps.ingress packet.destination = preDestination entries packet ∧
    rewriteBy maps.egress packet.source = postSource entries packet ∧
    ((∀ pair ∈ prePairs entries, ipv4.member pair.1 packet.destination = false) →
      rewriteBy maps.ingress packet.destination = packet.destination ∧
        preDestination entries packet = packet.destination) ∧
    ((∀ pair ∈ postPairs entries, ipv4.member pair.1 packet.source = false) →
      rewriteBy maps.egress packet.source = packet.source ∧
        postSource entries packet = packet.source)

theorem buildRemapMaps_eq_ok {sorter : Sorter} {entries : List RemapEntry} {maps : RemapMaps} :
    buildRemapMaps sorter entries = .ok maps ↔
      ∃ collected, collectMaps entries = .ok collected ∧
        maps = ⟨sorter.run collected.ingress, sorter.run collected.egress⟩ := by
  rw [buildRemapMaps, Outcome.bind_eq_ok]
  simp only [Outcome.pure_eq_ok, Outcome.ok.injEq, eq_comm]

/-- The sort that keeps the order of equal keys. -/
def stableSorter : Sorter where
  run := Sorting.sort lessKey
  perm := Sorting.sort_perm lessKey
  sorted := Sorting.sort_pairwise lessKey_orders

/-- For accepted entries the backends agree exactly when the rule order is harmless in both
directions. -/
theorem backends_agree_iff (entries : List RemapEntry)
    (accepted : ∃ sorter maps, buildRemapMaps sorter entries = .ok maps) :
    (∀ sorter maps, buildRemapMaps sorter entries = .ok maps → BackendsAgree maps entries) ↔
      OrderHarmless (prePairs entries) ∧ OrderHarmless (postPairs entries) := by
  obtain ⟨_, _, built⟩ := accepted
  obtain ⟨collected, collected_ok, -⟩ := buildRemapMaps_eq_ok.mp built
  obtain ⟨held_in, held_out⟩ := holdAll_of_collectMaps collected_ok
  rw [← held_in.rewriteBy_eq_iff, ← held_out.rewriteBy_eq_iff]
  constructor
  · intro agree
    have agree_at := fun sorter packet => agree sorter _
      (buildRemapMaps_eq_ok.mpr ⟨collected, collected_ok, rfl⟩) packet
    constructor
    · intro sorter address
      have equal := (agree_at sorter ⟨address, address, .tcp, 0, .new⟩).1
      rwa [preDestination_eq] at equal
    · intro sorter address
      have equal := (agree_at sorter ⟨address, address, .tcp, 0, .new⟩).2.1
      rwa [postSource_eq] at equal
  · rintro ⟨agree_in, agree_out⟩ sorter maps built packet
    obtain ⟨other, other_ok, rfl⟩ := buildRemapMaps_eq_ok.mp built
    obtain rfl := Outcome.ok.inj (collected_ok.symm.trans other_ok)
    rw [preDestination_eq, postSource_eq]
    refine ⟨agree_in sorter _, agree_out sorter _, fun unmatched => ⟨?_, ?_⟩,
      fun unmatched => ⟨?_, ?_⟩⟩
    · exact (held_in.perm (sorter.perm _)).rewriteBy_of_unmatched unmatched
    · rw [firstMatch_eq_none unmatched, getD_none]
    · exact (held_out.perm (sorter.perm _)).rewriteBy_of_unmatched unmatched
    · rw [firstMatch_eq_none unmatched, getD_none]

/-- Pod range of a cluster that is presented under one block of the pool. -/
def podEntry : RemapEntry := ⟨"10.244.0.0/16", "172.18.0.0/16"⟩

/-- A service range whose virtual range lies inside that of the pods. -/
def serviceEntry : RemapEntry := ⟨"10.96.24.0/24", "172.18.24.0/24"⟩

theorem backends_agree_iff_pod :
    (buildRemapMaps stableSorter [podEntry]).isOk = true ∧
      ∀ sorter maps, buildRemapMaps sorter [podEntry] = .ok maps →
        BackendsAgree maps [podEntry] := by
  have accepted : (buildRemapMaps stableSorter [podEntry]).isOk = true := by decide +kernel
  exact ⟨accepted, (backends_agree_iff [podEntry] ⟨_, Outcome.isOk_iff.mp accepted⟩).mpr
    ⟨orderHarmless_of_disjoint (by decide +kernel) (by decide +kernel),
      orderHarmless_of_disjoint (by decide +kernel) (by decide +kernel)⟩⟩

/-- A packet for a service arrives at a pod address under the netfilter rules: the rule of the pods
stands first by its text. -/
theorem backends_differ_on_nested :
    ((buildRemapMaps stableSorter [podEntry, serviceEntry]).getD ⟨[], []⟩).ingress.length = 2 ∧
      rewriteBy ((buildRemapMaps stableSorter [podEntry, serviceEntry]).getD ⟨[], []⟩).ingress
        0xAC121805#32 = 0x0A601805#32 ∧
      preDestination [podEntry, serviceEntry] ⟨0x0A010203#32, 0xAC121805#32, .tcp, 443, .new⟩ =
        0x0AF41805#32 := by
  decide +kernel

end DatawerxMesh.Ebpf
