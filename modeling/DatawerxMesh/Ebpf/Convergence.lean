import DatawerxMesh.Ebpf.Manager

/-!
# Convergence of the eBPF maps

On entries with their own canonical prefixes a run of `SyncRemap` converges without a gap, and the
next one has nothing to do.
-/

namespace DatawerxMesh.Ebpf

open Go Program PrefixTable NatPlane List

/-- The entries that are not blank. -/
def programmed (entries : List RemapEntry) : List RemapEntry :=
  entries.filter fun entry => !(entry.real == [] || entry.virtual == [])

/-- The canonical text of an accepted prefix. -/
def canonical (cidr : Str) : Option Str :=
  match parseV4Prefix cidr with
  | .ok parsed => some parsed.2
  | .err _ => none
  | .panic => none

/-- Distinct entries have distinct canonical prefixes in a field. -/
def OwnPrefixes (field : RemapEntry → Str) (entries : List RemapEntry) : Prop :=
  ∀ left ∈ programmed entries, ∀ right ∈ programmed entries, left ≠ right →
    canonical (field left) ≠ canonical (field right)

theorem net_of_parseV4Prefix {cidr text : Str} {key : TrieKey}
    (parsed : parseV4Prefix cidr = .ok (key, text)) :
    ∃ net : IPNet, net.ones = key.len ∧ net.ip.to4 = some key.addr ∧ net.string = text := by
  rw [parseV4Prefix] at parsed
  split at parsed
  · cases parsed
  · rename_i ip net cidr_eq
    split at parsed
    · rename_i base _ base_eq
      obtain ⟨rfl, rfl⟩ := parsed
      exact ⟨net, rfl, base_eq, rfl⟩
    · cases parsed

/-- The length and the four-byte base tell the network. -/
theorem net_eq_of_key {left right : IPNet} {addr : BitVec 32} (ones : left.ones = right.ones)
    (left_base : left.ip.to4 = some addr) (right_base : right.ip.to4 = some addr) :
    left = right := by
  cases left with
  | four left =>
    cases right with
    | four right =>
      have bases := Option.some.inj (left_base.trans right_base.symm)
      exact congrArg IPNet.four (keyOf_injective (congrArg₂ Key.mk ones bases))
    | sixteen right =>
      have long := len_of_unmap right_base
      have short := left.len_le
      change left.len = right.len at ones
      omega
  | sixteen left =>
    cases right with
    | four right =>
      have long := len_of_unmap left_base
      have short := right.len_le
      change left.len = right.len at ones
      omega
    | sixteen right =>
      have bases : left.base = right.base :=
        (eq_mapped_of_unmap left_base).trans (eq_mapped_of_unmap right_base).symm
      exact congrArg IPNet.sixteen (keyOf_injective (congrArg₂ Key.mk ones bases))

theorem text_eq_of_key {left right leftText rightText : Str} {key : TrieKey}
    (left_parsed : parseV4Prefix left = .ok (key, leftText))
    (right_parsed : parseV4Prefix right = .ok (key, rightText)) : leftText = rightText := by
  obtain ⟨net, ones, base, rfl⟩ := net_of_parseV4Prefix left_parsed
  obtain ⟨net', ones', base', rfl⟩ := net_of_parseV4Prefix right_parsed
  rw [net_eq_of_key (ones.trans ones'.symm) base base']

theorem keys_of_mapEntries {entry : RemapEntry} {pair : MapEntry × MapEntry}
    (mapped : mapEntries entry = .ok pair) :
    (∃ text, parseV4Prefix entry.virtual = .ok (pair.1.key, text)) ∧
      ∃ text, parseV4Prefix entry.real = .ok (pair.2.key, text) := by
  obtain ⟨⟨realKey, realCIDR⟩, real_ok, mapped⟩ := Outcome.bind_eq_ok.mp mapped
  obtain ⟨⟨virtKey, virtCIDR⟩, virt_ok, mapped⟩ := Outcome.bind_eq_ok.mp mapped
  rw [Outcome.mapErr_eq_ok] at real_ok virt_ok
  by_cases same_len : realKey.len = virtKey.len
  · simp only [ne_eq, same_len, not_true_eq_false, if_false, Outcome.pure_eq_ok, Outcome.ok.injEq]
      at mapped
    obtain rfl := mapped
    exact ⟨⟨virtCIDR, virt_ok⟩, realCIDR, real_ok⟩
  · simp [same_len] at mapped

variable {entries : List RemapEntry}

theorem nodup_keys_of_prefixes {field : RemapEntry → Str}
    (own : OwnPrefixes field entries) {key : RemapEntry → TrieKey}
    (parsed : ∀ entry ∈ (programmed entries).eraseDups,
      ∃ text, parseV4Prefix (field entry) = .ok (key entry, text)) :
    ((programmed entries).eraseDups.map key).Nodup := by
  refine (Accumulation.nodup_eraseDups _).map_on fun left left_mem right right_mem same => ?_
  obtain ⟨leftText, left_ok⟩ := parsed left left_mem
  obtain ⟨rightText, right_ok⟩ := parsed right right_mem
  by_contra differ
  refine own left (mem_eraseDups.mp left_mem) right (mem_eraseDups.mp right_mem) differ ?_
  rw [← same] at right_ok
  rw [canonical, canonical, left_ok, right_ok, text_eq_of_key left_ok right_ok]

theorem ownKeys_of_built {sorter : Sorter} {maps : RemapMaps}
    (built : buildRemapMaps sorter entries = .ok maps) (real : OwnPrefixes RemapEntry.real entries)
    (virtual : OwnPrefixes RemapEntry.virtual entries) (id : MapID) :
    OwnKeys (maps.entriesOf id) := by
  obtain ⟨collected, collected_eq, rfl⟩ := buildRemapMaps_eq_ok.mp built
  obtain ⟨pairs, mapped, maps_eq⟩ := Outcome.bind_eq_ok.mp collected_eq
  obtain rfl := Outcome.ok.inj maps_eq
  let unset : MapEntry := ⟨⟨0, 0⟩, ⟨0, 0⟩, [], []⟩
  obtain ⟨all, rfl⟩ := (Outcome.mapM_eq_ok mapEntries (unset, unset) _ pairs).mp mapped
  have keys : ∀ entry ∈ (programmed entries).eraseDups, (∃ text, parseV4Prefix entry.virtual =
        .ok (((mapEntries entry).getD (unset, unset)).1.key, text)) ∧
      ∃ text, parseV4Prefix entry.real =
        .ok (((mapEntries entry).getD (unset, unset)).2.key, text) := by
    intro entry mem
    obtain ⟨pair, pair_eq⟩ := all entry mem
    rw [pair_eq]
    exact keys_of_mapEntries pair_eq
  cases id with
  | ingress =>
    refine (((sorter.perm _).map _).nodup_iff).mpr ?_
    rw [map_map, map_map]
    exact nodup_keys_of_prefixes virtual fun entry mem => (keys entry mem).1
  | egress =>
    refine (((sorter.perm _).map _).nodup_iff).mpr ?_
    rw [map_map, map_map]
    exact nodup_keys_of_prefixes real fun entry mem => (keys entry mem).2

theorem target_eq_of_built {sorter sorter' : Sorter}
    {maps maps' : RemapMaps} (built : buildRemapMaps sorter entries = .ok maps)
    (built' : buildRemapMaps sorter' entries = .ok maps')
    (own : ∀ id, OwnKeys (maps.entriesOf id)) (own' : ∀ id, OwnKeys (maps'.entriesOf id)) :
    maps.target = maps'.target := by
  obtain ⟨collected, collected_eq, rfl⟩ := buildRemapMaps_eq_ok.mp built
  obtain ⟨collected', collected_eq', rfl⟩ := buildRemapMaps_eq_ok.mp built'
  obtain rfl := Outcome.ok.inj (collected_eq.symm.trans collected_eq')
  have same_members : ∀ id e,
      e ∈ (RemapMaps.mk (sorter.run collected.ingress) (sorter.run collected.egress)).entriesOf id ↔
      e ∈ (RemapMaps.mk (sorter'.run collected.ingress)
        (sorter'.run collected.egress)).entriesOf id := by
    intro id e
    cases id with
    | ingress => exact (sorter.perm _).mem_iff.trans (sorter'.perm _).mem_iff.symm
    | egress => exact (sorter.perm _).mem_iff.trans (sorter'.perm _).mem_iff.symm
  funext id key
  ext val
  simp only [RemapMaps.target, contents_eq_some (own id), contents_eq_some (own' id), same_members]

/-- A call writes or deletes a cell. -/
def MapCall.Touches (id : MapID) (key : TrieKey) : MapCall → Prop
  | .list _ => False
  | .update other cell _ => other = id ∧ cell = key
  | .delete other cell => other = id ∧ cell = key

theorem Justified.not_touches {before target : Contents} {call : MapCall}
    (justified : Justified before target call) {id : MapID} {key : TrieKey}
    (right : before id key = target id key) : ¬ call.Touches id key := by
  cases call with
  | list _ => exact fun touches => touches
  | update _ _ _ =>
    rintro ⟨rfl, rfl⟩
    exact justified.2 (right.trans justified.1)
  | delete _ _ =>
    rintro ⟨rfl, rfl⟩
    exact justified.2 (right.trans justified.1)

theorem Justified.is_list {target : Contents} {call : MapCall}
    (justified : Justified target target call) : ∃ id, call = .list id := by
  cases call with
  | list id => exact ⟨id, rfl⟩
  | update _ _ _ => exact absurd justified.1 justified.2
  | delete _ _ => exact absurd justified.1 justified.2

/-- A kernel that serves all calls. -/
def serve (call : MapCall) (maps : LiveMaps) : call.Answer × LiveMaps :=
  (.ok (call.effect maps).1, (call.effect maps).2)

theorem ensures_only_lists (go : Runtime ManagerSite) {sorter : Sorter}
    {maps : RemapMaps} (built : buildRemapMaps sorter entries = .ok maps)
    (own : ∀ id, OwnKeys (maps.entriesOf id)) {after : LiveMaps} (done : after.view = maps.target) :
    (bpf False).logged.Ensures (fun seen => ∀ exchange ∈ seen.2, ∃ id, exchange.1 = .list id)
      (fun result _ => result = .ok ()) (syncRemap go sorter entries).run (after, []) := by
  refine ((ensures_syncRemap False go built own after).weaken
    fun seen underway exchange mem => ?_).mono ?_
  · have justified := underway.justified exchange mem
    rw [done] at justified
    exact justified.is_list
  · rintro (error | _) _ holds
    · exact holds.elim
    · rfl

/-- Where all calls succeed, `SyncRemap` succeeds and leaves each map with exactly the wanted
entries.  On the way a key that was there and is wanted keeps its old content or has the wanted one,
a key that is right is not touched, and a second run only lists. -/
theorem syncRemap_converges (go go' : Runtime ManagerSite) (sorter sorter' : Sorter)
    (entries : List RemapEntry) (maps : RemapMaps)
    (built : buildRemapMaps sorter entries = .ok maps)
    (real : OwnPrefixes RemapEntry.real entries)
    (virtual : OwnPrefixes RemapEntry.virtual entries) (before : LiveMaps) :
    (∃ after, (bpf False).logged.Returns (syncRemap go sorter entries).run (before, []) (.ok ())
      after) ∧
    (bpf False).logged.Ensures (fun seen =>
        (∀ id key, before.view id key ≠ none → maps.target id key ≠ none →
          seen.1.view id key = before.view id key ∨ seen.1.view id key = maps.target id key) ∧
        ∀ id key, before.view id key = maps.target id key →
          ∀ exchange ∈ seen.2, ¬ exchange.1.Touches id key)
      (fun result after => result = .ok () ∧
        (∀ id key val, after.1.view id key = some val ↔
          ∃ e ∈ maps.entriesOf id, e.key = key ∧ e.val = val) ∧
        (bpf False).logged.Ensures (fun seen => ∀ exchange ∈ seen.2, ∃ id, exchange.1 = .list id)
          (fun result _ => result = .ok ()) (syncRemap go' sorter' entries).run (after.1, []))
      (syncRemap go sorter entries).run (before, []) := by
  have own := ownKeys_of_built built real virtual
  have ensures := ensures_syncRemap False go built own before
  obtain ⟨maps', built'⟩ : ∃ maps', buildRemapMaps sorter' entries = .ok maps' := by
    obtain ⟨collected, collected_eq, -⟩ := buildRemapMaps_eq_ok.mp built
    exact ⟨_, buildRemapMaps_eq_ok.mpr ⟨collected, collected_eq, rfl⟩⟩
  have own' := ownKeys_of_built built' real virtual
  have target_eq := target_eq_of_built built built' own own'
  constructor
  · have served : ∀ call maps, (bpf False).respond call maps (serve call maps).1
        (serve call maps).2 := fun _ _ => Or.inl ⟨rfl, rfl⟩
    have returns := World.returns_logging served (syncRemap go sorter entries).run (before, [])
    have holds := ensures.returns returns
    generalize ((syncRemap go sorter entries).run.exec (World.logging serve) (before, [])).1 =
      result at returns holds
    cases result with
    | error error => exact holds.elim
    | ok _ => exact ⟨_, returns⟩
  · refine World.Ensures.weaken (ensures.mono ?_) fun seen underway => ?_
    · rintro (error | _) after done
      · exact done.elim
      · have reached : after.1.view = maps.target := done
        refine ⟨rfl, fun id key val => ?_,
          ensures_only_lists go' built' own' (reached.trans target_eq)⟩
        rw [reached]
        exact contents_eq_some (own id)
    · refine ⟨fun id key _ _ => underway.between id key, fun id key right exchange mem => ?_⟩
      exact (underway.justified exchange mem).not_touches right

/-- Maps with an entry that is not wanted. -/
def staleMaps : LiveMaps
  | .ingress => AList.singleton ⟨8, 0⟩ ⟨0, 8⟩
  | .egress => ∅

theorem syncRemap_converges_stale :
    ∃ maps, buildRemapMaps stableSorter [podEntry, serviceEntry] = .ok maps ∧
      (∃ after, (bpf False).logged.Returns
        (syncRemap (.stable _) stableSorter [podEntry, serviceEntry]).run (staleMaps, []) (.ok ())
        after ∧ ∀ id key val, after.1.view id key = some val ↔
          ∃ e ∈ maps.entriesOf id, e.key = key ∧ e.val = val) := by
  have real : OwnPrefixes RemapEntry.real [podEntry, serviceEntry] := by
    unfold OwnPrefixes
    decide
  have virtual : OwnPrefixes RemapEntry.virtual [podEntry, serviceEntry] := by
    unfold OwnPrefixes
    decide
  refine ⟨_, rfl, ?_⟩
  obtain ⟨⟨after, returns⟩, ensures⟩ := syncRemap_converges (.stable _) (.stable _) stableSorter
    stableSorter [podEntry, serviceEntry] _ rfl real virtual staleMaps
  exact ⟨after, returns, (ensures.returns returns).2.1⟩

end DatawerxMesh.Ebpf
