import DatawerxMesh.Ebpf.Backends
import DatawerxMesh.Go.Runtime
import DatawerxMesh.Library.Script
import Mathlib.Data.List.AList

/-!
# Reconciling the eBPF maps

`SyncRemap` of `pkg/dataplane/ebpf/manager.go`.  Every call it makes is justified by a snapshot of
the map and the target alone, and all guarantees come from that.
-/

namespace DatawerxMesh.Ebpf

open Go Program World PrefixTable NatPlane List Function

/-- The two maps. -/
inductive MapID where
  | ingress
  | egress
  deriving DecidableEq

/-- The name of a map. -/
def MapID.string : MapID → Str
  | ingress => "ingress"
  | egress => "egress"

/-- A kernel map, or the Go map that `List` returns. -/
abbrev LiveMap := AList fun _ : TrieKey => Rewrite

/-- The two maps of the datapath. -/
abbrev LiveMaps := MapID → LiveMap

/-- The calls of `MapOps` that a reconcile makes. -/
inductive MapCall where
  | list (id : MapID)
  | update (id : MapID) (key : TrieKey) (val : Rewrite)
  | delete (id : MapID) (key : TrieKey)

namespace MapCall

/-- What a call returns. -/
abbrev Value : MapCall → Type
  | list _ => LiveMap
  | update _ _ _ => Unit
  | delete _ _ => Unit

/-- The answer to a call. -/
abbrev Answer (call : MapCall) : Type := Except Str call.Value

/-- What a call that succeeds returns and leaves behind. -/
def effect (call : MapCall) (maps : LiveMaps) : call.Value × LiveMaps :=
  match call with
  | list id => (maps id, maps)
  | update id key val => ((), Function.update maps id ((maps id).insert key val))
  | delete id key => ((), Function.update maps id ((maps id).erase key))

end MapCall

/-- The kernel.  A call succeeds, or, where calls may fail, fails and changes nothing. -/
def bpf (mayFail : Prop) : World MapCall MapCall.Answer LiveMaps where
  respond call before answer after :=
    (answer = .ok (call.effect before).1 ∧ after = (call.effect before).2) ∨
      (mayFail ∧ (∃ error, answer = .error error) ∧ after = before)
  interfere _ _ := False

/-- Errors of `SyncRemap`.  `BuildRemapMaps` does not panic. -/
inductive SyncError where
  | build (error : MapsError)
  | panic
  | listing (id : MapID) (cause : Str)
  | updating (id : MapID) (keyCIDR valCIDR cause : Str)
  | deleting (id : MapID) (cause : Str)

/-- The message of an error. -/
def SyncError.text (quote : Str → Str) : SyncError → Str
  | build error => error.text quote
  | panic => []
  | listing id cause => "ebpf remap: listing " ++ id.string ++ " map: " ++ cause
  | updating id keyCIDR valCIDR cause =>
    "ebpf remap: updating " ++ id.string ++ " " ++ keyCIDR ++ "→" ++ valCIDR ++
      ": " ++ cause
  | deleting id cause =>
    "ebpf remap: deleting stale " ++ id.string ++ " entry: " ++ cause

/-- A program of calls that may fail. -/
abbrev Procedure := ExceptT SyncError (Script MapCall MapCall.Answer)

/-- Make a call; its error is returned as the given one. -/
def attempt (call : MapCall) (wrap : Str → SyncError) : Procedure call.Value :=
  ExceptT.mk (.call call fun answer => .done (answer.mapError wrap))

/-- The place where the manager ranges over a map. -/
inductive ManagerSite where
  | current

/-- The body of the first loop of `reconcileMap`. -/
def writeWanted (id : MapID) (current : LiveMap) (e : MapEntry) : Procedure PUnit :=
  if current.lookup e.key = some e.val then pure ()
  else attempt (.update id e.key e.val) (.updating id e.keyCIDR e.valCIDR)

/-- The body of the second loop of `reconcileMap`. -/
def deleteStale (id : MapID) (desired : List MapEntry) (key : TrieKey) : Procedure PUnit :=
  if key ∈ desired.map MapEntry.key then pure ()
  else attempt (.delete id key) (.deleting id)

/-- Wanted entries are written and all others deleted. -/
def reconcileMap (go : Runtime ManagerSite) (id : MapID) (desired : List MapEntry) :
    Procedure PUnit := do
  let current ← attempt (.list id) (.listing id)
  desired.forM (writeWanted id current)
  (go.range .current current.keys).forM (deleteStale id desired)

/-- Both maps follow the entries. -/
def syncRemap (go : Runtime ManagerSite) (sortEntries : Sorter) (entries : List RemapEntry) :
    Procedure PUnit :=
  match buildRemapMaps sortEntries entries with
  | .ok maps => do
      reconcileMap go .ingress maps.ingress
      reconcileMap go .egress maps.egress
  | .err error => throw (.build error)
  | .panic => throw .panic

/-- What the maps hold. -/
abbrev Contents := MapID → TrieKey → Option Rewrite

/-- What a map holds under a key. -/
def LiveMaps.view (maps : LiveMaps) : Contents := fun id key => (maps id).lookup key

/-- The entries of a map. -/
def RemapMaps.entriesOf (maps : RemapMaps) : MapID → List MapEntry
  | .ingress => maps.ingress
  | .egress => maps.egress

/-- The contents that the planned maps ask for. -/
def RemapMaps.target (maps : RemapMaps) : Contents := fun id => contents (maps.entriesOf id)

/-- A write sets a cell that was different to its target, and a deletion empties one without a
target. -/
def Justified (before target : Contents) : MapCall → Prop
  | .list _ => True
  | .update id key val => target id key = some val ∧ before id key ≠ some val
  | .delete id key => target id key = none ∧ before id key ≠ none

/-- Maps with a log of the calls made so far. -/
abbrev Logged := LiveMaps × List (World.Exchange MapCall MapCall.Answer)

/-- A reconcile on its way. -/
structure Underway (before target : Contents) (seen : Logged) : Prop where
  between : ∀ id key, seen.1.view id key = before id key ∨ seen.1.view id key = target id key
  justified : ∀ exchange ∈ seen.2, Justified before target exchange.1

section Underway

variable {before target : Contents} {mayFail : Prop}

theorem view_update (maps : LiveMaps) (id : MapID) (key : TrieKey) (val : Rewrite)
    (other : MapID) (cell : TrieKey) :
    LiveMaps.view ((MapCall.update id key val).effect maps).2 other cell =
      if other = id ∧ cell = key then some val else maps.view other cell := by
  simp only [LiveMaps.view, MapCall.effect]
  by_cases same : other = id
  · subst same
    rw [update_self]
    by_cases same_key : cell = key
    · rw [if_pos ⟨rfl, same_key⟩, same_key, AList.lookup_insert]
    · rw [if_neg fun both => same_key both.2, AList.lookup_insert_ne same_key]
  · rw [if_neg fun both => same both.1, update_of_ne same]

theorem view_delete (maps : LiveMaps) (id : MapID) (key : TrieKey) (other : MapID)
    (cell : TrieKey) :
    LiveMaps.view ((MapCall.delete id key).effect maps).2 other cell =
      if other = id ∧ cell = key then none else maps.view other cell := by
  simp only [LiveMaps.view, MapCall.effect]
  by_cases same : other = id
  · subst same
    rw [update_self]
    by_cases same_key : cell = key
    · rw [if_pos ⟨rfl, same_key⟩, same_key, AList.lookup_erase]
    · rw [if_neg fun both => same_key both.2, AList.lookup_erase_ne same_key]
  · rw [if_neg fun both => same both.1, update_of_ne same]

/-- A successful call leaves every cell between its old content and its target. -/
theorem between_effect {maps : LiveMaps} {call : MapCall}
    (between : ∀ id key, maps.view id key = before id key ∨ maps.view id key = target id key)
    (justified : Justified before target call) (id : MapID) (key : TrieKey) :
    LiveMaps.view (call.effect maps).2 id key = before id key ∨
      LiveMaps.view (call.effect maps).2 id key = target id key := by
  cases call with
  | list _ => exact between id key
  | update _ _ val =>
    rw [view_update]
    split
    case isTrue here =>
      rw [here.1, here.2]
      exact Or.inr justified.1.symm
    case isFalse => exact between id key
  | delete _ _ =>
    rw [view_delete]
    split
    case isTrue here =>
      rw [here.1, here.2]
      exact Or.inr justified.1.symm
    case isFalse => exact between id key

theorem justified_append {log : List (World.Exchange MapCall MapCall.Answer)}
    (all : ∀ exchange ∈ log, Justified before target exchange.1) {call : MapCall}
    (justified : Justified before target call) (answer : call.Answer) :
    ∀ exchange ∈ log ++ [⟨call, answer⟩], Justified before target exchange.1 := by
  intro exchange mem
  rcases mem_append.mp mem with old | new
  · exact all exchange old
  · rw [mem_singleton.mp new]
    exact justified

theorem bpf_drifts {seen after : Logged} (drift : (bpf mayFail).logged.Drifts seen after) :
    after = seen := by
  cases drift with
  | refl => rfl
  | tail _ step => exact step.1.elim

theorem ensures_attempt {call : MapCall} {wrap : Str → SyncError} {seen : Logged}
    {returned : call.Value → Logged → Prop} (underway : Underway before target seen)
    (justified : Justified before target call)
    (effective : ∀ log, Underway before target ((call.effect seen.1).2, log) →
      returned (call.effect seen.1).1 ((call.effect seen.1).2, log)) :
    (bpf mayFail).logged.Ensures (Underway before target)
      (byResult returned fun _ _ => mayFail) (attempt call wrap).run seen := by
  intro asked drift
  obtain rfl := bpf_drifts drift
  refine ⟨underway, ?_⟩
  rintro answer ⟨maps, log⟩ ⟨⟨rfl, rfl⟩ | ⟨may_fail, ⟨error, rfl⟩, rfl⟩, rfl⟩
  · have after := between_effect underway.between justified
    have logged := justified_append underway.justified justified
    exact ⟨⟨after, logged _⟩, effective _ ⟨after, logged _⟩⟩
  · refine ⟨⟨underway.between, ?_⟩, may_fail⟩
    exact justified_append underway.justified justified _

/-- The calls on one map leave the other one. -/
def Spares (id : MapID) (start : LiveMaps) (maps : LiveMaps) : Prop :=
  ∀ other ≠ id, maps other = start other

/-- No key is wanted twice. -/
def OwnKeys (desired : List MapEntry) : Prop := (desired.map MapEntry.key).Nodup

variable {desired : List MapEntry}

theorem contents_of_mem (own : OwnKeys desired) {e : MapEntry}
    (mem : e ∈ desired) : contents desired e.key = some e.val := by
  obtain ⟨earlier, later, rfl⟩ := append_of_mem mem
  rw [OwnKeys, map_append, map_cons, perm_middle.nodup_iff, nodup_cons] at own
  refine writeAll_eq_some.mpr ⟨_, _, by rw [map_append, map_cons], ?_⟩
  intro entry later_mem same
  obtain ⟨other, other_mem, rfl⟩ := mem_map.mp later_mem
  exact own.1 (mem_append_right _ (same ▸ mem_map_of_mem other_mem))

theorem contents_eq_some (own : OwnKeys desired) {key : TrieKey}
    {val : Rewrite} :
    contents desired key = some val ↔ ∃ e ∈ desired, e.key = key ∧ e.val = val := by
  constructor
  · intro found
    obtain ⟨earlier, later, split, -⟩ := writeAll_eq_some.mp found
    have listed : (key, val) ∈ desired.map fun entry => (entry.key, entry.val) := by
      rw [split]
      simp
    obtain ⟨e, mem, same⟩ := mem_map.mp listed
    exact ⟨e, mem, (Prod.mk.inj same).1, (Prod.mk.inj same).2⟩
  · rintro ⟨e, mem, rfl, rfl⟩
    exact contents_of_mem own mem

theorem contents_of_not_mem {key : TrieKey}
    (absent : key ∉ desired.map MapEntry.key) : contents desired key = none := by
  refine writeAll_eq_none.mpr fun entry mem same => absent ?_
  obtain ⟨e, e_mem, rfl⟩ := mem_map.mp mem
  exact same ▸ mem_map_of_mem e_mem

section Map

variable {id : MapID} {desired : List MapEntry} {start maps : LiveMaps}

theorem OwnKeys.key_ne (own : OwnKeys desired) {e other : MapEntry} (mem : e ∈ desired)
    (other_mem : other ∈ desired) (differ : other ≠ e) : other.key ≠ e.key :=
  fun same => differ (inj_on_of_nodup_map own other_mem mem same)

theorem Spares.update (spared : Spares id start maps) (key : TrieKey) (val : Rewrite) :
    Spares id start ((MapCall.update id key val).effect maps).2 := by
  intro other differ
  exact (update_of_ne differ _ _).trans (spared other differ)

theorem Spares.delete (spared : Spares id start maps) (key : TrieKey) :
    Spares id start ((MapCall.delete id key).effect maps).2 := by
  intro other differ
  exact (update_of_ne differ _ _).trans (spared other differ)

theorem ensures_writeWanted (own : OwnKeys desired) (target_eq : target id = contents desired)
    (snapshot : start.view id = before id) {seen : Logged} (underway : Underway before target seen)
    (spared : Spares id start seen.1) :
    (bpf mayFail).logged.Ensures (Underway before target)
      (byResult (fun _ after => (Underway before target after ∧ Spares id start after.1) ∧
        ∀ e ∈ desired, after.1.view id e.key = some e.val) fun _ _ => mayFail)
      (desired.forM (writeWanted id (start id))).run seen := by
  -- A round keeps what it has written for the entries of the list, which have other keys.
  refine Ensures.mono (Ensures.forM_each
    (fun seen => Underway before target seen ∧ Spares id start seen.1)
    (fun e seen => e ∈ desired → seen.1.view id e.key = some e.val) (fun _ _ => mayFail)
    (fun _ holds => holds.1) ?_ ⟨underway, spared⟩) ?_
  case refine_2 =>
    rintro (error | _) after holds
    · exact holds
    · exact ⟨holds.1, fun e mem => holds.2 e mem mem⟩
  rintro e mem ⟨maps, log⟩ ⟨underway, spared⟩
  have wanted : target id e.key = some e.val := by rw [target_eq, contents_of_mem own mem]
  rw [writeWanted]
  by_cases right : (start id).lookup e.key = some e.val
  · rw [if_pos right]
    refine ⟨underway, ⟨underway, spared⟩, fun _ => ?_, fun _ _ kept => kept⟩
    have old : before id e.key = some e.val := snapshot ▸ right
    rcases underway.between id e.key with kept | set
    · exact kept.trans old
    · exact set.trans wanted
  · rw [if_neg right]
    have old : before id e.key ≠ some e.val := snapshot ▸ right
    refine ensures_attempt underway ⟨wanted, old⟩ fun log after => ?_
    refine ⟨⟨after, spared.update e.key e.val⟩, fun _ => ?_, fun other differ kept other_mem => ?_⟩
    · rw [view_update, if_pos ⟨rfl, rfl⟩]
    · rw [view_update, if_neg fun both => own.key_ne mem other_mem differ both.2]
      exact kept other_mem

theorem ensures_deleteStale (target_eq : target id = contents desired)
    (snapshot : start.view id = before id) {keys : List TrieKey}
    (listed : ∀ key ∈ keys, key ∈ (start id).keys) {seen : Logged}
    (underway : Underway before target seen) (spared : Spares id start seen.1)
    (written : ∀ e ∈ desired, seen.1.view id e.key = some e.val) :
    (bpf mayFail).logged.Ensures (Underway before target)
      (byResult (fun _ after => (Underway before target after ∧ Spares id start after.1 ∧
        ∀ e ∈ desired, after.1.view id e.key = some e.val) ∧
        ∀ key ∈ keys, key ∉ desired.map MapEntry.key → after.1.view id key = none)
        fun _ _ => mayFail)
      (keys.forM (deleteStale id desired)).run seen := by
  refine Ensures.forM_each
    (fun seen => Underway before target seen ∧ Spares id start seen.1 ∧
      ∀ e ∈ desired, seen.1.view id e.key = some e.val)
    (fun key seen => key ∉ desired.map MapEntry.key → seen.1.view id key = none)
    (fun _ _ => mayFail) (fun _ holds => holds.1) ?_ ⟨underway, spared, written⟩
  rintro key mem ⟨maps, log⟩ ⟨underway, spared, written⟩
  rw [deleteStale]
  by_cases wanted : key ∈ desired.map MapEntry.key
  · rw [if_pos wanted]
    exact ⟨underway, ⟨underway, spared, written⟩, fun absent => absurd wanted absent,
      fun _ _ kept => kept⟩
  · rw [if_neg wanted]
    have unwanted : target id key = none := by rw [target_eq, contents_of_not_mem wanted]
    have filled : before id key ≠ none := by
      rw [← snapshot, LiveMaps.view, ne_eq, AList.lookup_eq_none, not_not]
      exact listed key mem
    refine ensures_attempt underway ⟨unwanted, filled⟩ fun log after => ?_
    refine ⟨⟨after, spared.delete key, fun e e_mem => ?_⟩, fun _ => ?_,
      fun other differ kept absent => ?_⟩
    · have other_key : e.key ≠ key := fun same => wanted (same ▸ mem_map_of_mem e_mem)
      rw [view_delete, if_neg fun both => other_key both.2]
      exact written e e_mem
    · rw [view_delete, if_pos ⟨rfl, rfl⟩]
    · rw [view_delete, if_neg fun both => differ both.2]
      exact kept absent

/-- A reconcile of one map brings it to its target and leaves the other one. -/
theorem ensures_reconcileMap (go : Runtime ManagerSite) (own : OwnKeys desired)
    (target_eq : target id = contents desired) {seen : Logged}
    (underway : Underway before target seen) (snapshot : seen.1.view id = before id) :
    (bpf mayFail).logged.Ensures (Underway before target)
      (byResult (fun _ after => Underway before target after ∧ Spares id seen.1 after.1 ∧
        after.1.view id = target id) fun _ _ => mayFail)
      (reconcileMap go id desired).run seen := by
  refine Ensures.attempt (ensures_attempt underway True.intro fun log after => ?_)
  refine Ensures.attempt ((ensures_writeWanted own target_eq snapshot after
    fun _ _ => rfl).mono fun result reached holds => ?_)
  cases result with
  | error error => exact holds
  | ok _ =>
    obtain ⟨⟨underway, spared⟩, written⟩ := holds
    have range_mem : ∀ key ∈ go.range .current (seen.1 id).keys, key ∈ (seen.1 id).keys :=
      fun key => (go.range_perm _ _).mem_iff.mp
    refine (ensures_deleteStale target_eq snapshot range_mem underway spared written).mono
      fun result reached holds => ?_
    cases result with
    | error error => exact holds
    | ok _ =>
      obtain ⟨⟨underway, spared, written⟩, emptied⟩ := holds
      refine ⟨underway, spared, funext fun key => ?_⟩
      by_cases wanted : key ∈ desired.map MapEntry.key
      · obtain ⟨e, mem, rfl⟩ := mem_map.mp wanted
        rw [written e mem, target_eq, contents_of_mem own mem]
      · have unwanted : target id key = none := by rw [target_eq, contents_of_not_mem wanted]
        by_cases old : key ∈ (seen.1 id).keys
        · rw [emptied key ((go.range_perm _ _).mem_iff.mpr old) wanted, unwanted]
        · have never : before id key = none := by
            rw [← snapshot, LiveMaps.view, AList.lookup_eq_none]
            exact old
          exact (underway.between id key).elim (·.trans (never.trans unwanted.symm)) (·)

end Map

theorem ensures_syncRemap (mayFail : Prop) (go : Runtime ManagerSite) {sorter : Sorter}
    {entries : List RemapEntry} {maps : RemapMaps}
    (built : buildRemapMaps sorter entries = .ok maps)
    (own : ∀ id, OwnKeys (maps.entriesOf id)) (start : LiveMaps) :
    (bpf mayFail).logged.Ensures (Underway start.view maps.target)
      (byResult (fun _ after => after.1.view = maps.target) fun _ _ => mayFail)
      (syncRemap go sorter entries).run (start, []) := by
  have idle : Underway start.view maps.target (start, []) :=
    ⟨fun _ _ => Or.inl rfl, fun _ mem => absurd mem not_mem_nil⟩
  rw [syncRemap, built]
  refine Ensures.attempt ((ensures_reconcileMap go (own .ingress) rfl idle rfl).mono
    fun result reached holds => ?_)
  cases result with
  | error error => exact holds
  | ok _ =>
    obtain ⟨underway, spared, ingress_done⟩ := holds
    have untouched : reached.1.view .egress = start.view .egress := by
      funext key
      rw [LiveMaps.view, spared .egress (by decide), LiveMaps.view]
    refine (ensures_reconcileMap go (own .egress) rfl underway untouched).mono
      fun result after holds => ?_
    cases result with
    | error error => exact holds
    | ok _ =>
      obtain ⟨-, spared, egress_done⟩ := holds
      refine funext fun id => ?_
      cases id with
      | ingress =>
        rw [← ingress_done]
        funext key
        rw [LiveMaps.view, spared .ingress (by decide), LiveMaps.view]
      | egress => exact egress_done

end Underway

end DatawerxMesh.Ebpf
