import DatawerxMesh.Sync.Runs

/-!
# MeshPeers of others

`prune` deletes only labelled MeshPeers, but `upsert` sets the label on whatever MeshPeer has the
name of an entry.
-/

namespace DatawerxMesh.Sync

open Go Program ApiServer Relation DatawerxMesh.Topology List

/-- Nobody else edits the MeshPeer of a name. -/
def Untouched (name : Str) (before after : Peers) : Prop := after.find name = before.find name

/-- A pass writes no entry under a name. -/
def Syncer.Spares (s : Syncer) (name : Str) (memory : SyncMemory)
    (fetched : List RemotePeerConfig × Str) : Prop :=
  memory.skips (s.revision fetched) = true ∨
    ∀ peer ∈ fetched.1, s.accepts peer = true → sanitizeName peer.clusterID ≠ name

/-- Steps in which no pass writes an entry under a name. -/
def SparingStep (s : Syncer) (name : Str) (before after : SyncHistory) : Prop :=
  ∃ label, SyncStep s (Untouched name) label before after ∧
    ∀ fetched ∈ label, s.Spares name before.memory fetched

section Kept

variable {fetched : List RemotePeerConfig × Str} {name : Str} {foreign : StoredPeer} {α β : Type}

/-- A program keeps a MeshPeer in all states of its runs. -/
def Keeps (fetched : List RemotePeerConfig × Str) (name : Str) (foreign : StoredPeer)
    (script : SyncScript α) : Prop :=
  ∀ peers : Peers, peers.find name = some foreign →
    (syncWorld fetched (Untouched name)).Ensures (fun seen => seen.find name = some foreign)
      (fun _ _ => True) script peers

theorem keeps_pure (value : α) : Keeps fetched name foreign (pure value) :=
  fun _ present => ⟨present, trivial⟩

theorem Keeps.bind {script : SyncScript α} {next : α → SyncScript β}
    (first : Keeps fetched name foreign script)
    (rest : ∀ value, Keeps fetched name foreign (next value)) :
    Keeps fetched name foreign (script >>= next) := by
  intro peers present
  exact World.Ensures.bind ((first peers present).with_always.mono
    fun value seen holds => rest value seen holds.1)

theorem keeps_call {request : SyncCall} {next : request.Answer → SyncScript α}
    (harmless : ∀ before value after, request.Carried fetched before value after →
      Untouched name before after)
    (later : ∀ seen answer after, seen.find name = some foreign →
      Answers (request.Carried fetched) request.Missing seen answer after →
      Keeps fetched name foreign (next answer)) :
    Keeps fetched name foreign (.call request next) := by
  intro peers present
  have stable : (syncWorld fetched (Untouched name)).Stable fun seen =>
      seen.find name = some foreign :=
    fun before after here step => (step : Untouched name before after).trans here
  refine World.Ensures.of_call stable (fun _ => id)
    (fun seen answer after here answers => ?_) present
  refine later seen answer after here answers after ?_
  rcases answers.effect with rfl | ⟨value, carried⟩
  · exact here
  · exact (harmless seen value after carried).trans here

theorem keeps_write {target : Str} (differs : target ≠ name) {request : Write Str SyncedPeer}
    {next : (SyncCall.write target request).Answer → SyncScript α}
    (later : ∀ answer, Keeps fetched name foreign (next answer)) :
    Keeps fetched name foreign (.call (.write target request) next) :=
  keeps_call (fun _ _ _ => carried_write_of_ne differs) fun _ answer _ _ _ => later answer

theorem keeps_upsert {rc : RemotePeerConfig} (differs : sanitizeName rc.clusterID ≠ name) :
    Keeps fetched name foreign (upsert rc) := by
  refine Keeps.bind ?_ fun result => ?_
  · rw [createOrUpdate, ApiServer.createOrUpdate, Script.perform_bind]
    refine keeps_call (fun before value after carried => congrArg (Store.find · name) carried.2)
      fun seen answer after _ _ => ?_
    cases answer with
    | error error =>
      dsimp only
      split
      case isTrue => exact keeps_write differs keeps_pure
      case isFalse => exact keeps_pure _
    | ok existing =>
      dsimp only
      split
      case isTrue => exact keeps_pure _
      case isFalse => exact keeps_write differs keeps_pure
  · cases result <;> exact keeps_pure _

theorem keeps_upsertLoop (s : Syncer) {entries : List RemotePeerConfig}
    (spared : ∀ peer ∈ entries, s.accepts peer = true → sanitizeName peer.clusterID ≠ name)
    (desired : Finset Str) (ok : Bool) :
    Keeps fetched name foreign (s.upsertLoop entries desired ok) := by
  induction entries generalizing desired ok with
  | nil => exact keeps_pure _
  | cons peer rest ih =>
    have rest_spared := ih fun other mem => spared other (mem_cons_of_mem _ mem)
    rw [Syncer.upsertLoop]
    split
    case isTrue accepted =>
      refine (keeps_upsert (spared peer mem_cons_self accepted)).bind fun result => ?_
      cases result <;> exact rest_spared _ _
    case isFalse => exact rest_spared _ _

theorem keeps_pruneLoop (desired : Finset Str) {items : List (Str × StoredPeer)}
    (unlisted : ∀ item ∈ items, item.1 ≠ name) :
    Keeps fetched name foreign (pruneLoop desired items) := by
  induction items with
  | nil => exact keeps_pure _
  | cons item rest ih =>
    have rest_kept := ih fun other mem => unlisted other (mem_cons_of_mem _ mem)
    rw [pruneLoop]
    split
    case isTrue => exact rest_kept
    case isFalse =>
      split
      case isTrue => exact rest_kept
      case isFalse =>
        refine keeps_write (unlisted item mem_cons_self) fun answer => ?_
        cases answer with
        | ok _ => exact rest_kept
        | error error =>
          dsimp only
          split
          case isTrue => exact rest_kept
          case isFalse => exact keeps_pure _

theorem keeps_prune (unlabelled : isManaged foreign = false) (desired : Finset Str) :
    Keeps fetched name foreign (prune desired) := by
  refine keeps_call (fun before value after carried => congrArg (Store.find · name) carried.2)
    fun seen answer after present answers => ?_
  obtain ⟨items, rfl, listed, -⟩ | ⟨error, rfl, -⟩ := answers
  · refine keeps_pruneLoop desired ?_
    rintro ⟨target, held⟩ mem rfl
    rw [listed.mem_iff, Store.mem_list, present] at mem
    obtain ⟨same, labelled⟩ := mem
    obtain rfl := Option.some.inj same
    rw [unlabelled] at labelled
    cases labelled
  · exact keeps_pure _

theorem keeps_fetch_bind (s : Syncer)
    {next : Except Str (List RemotePeerConfig × Str) → SyncScript β}
    (failure : ∀ error, Keeps fetched name foreign (next (.error error)))
    (success : Keeps fetched name foreign (next (.ok (fetched.1, s.revision fetched)))) :
    Keeps fetched name foreign (s.fetch >>= next) := by
  rw [Syncer.fetch]
  split
  all_goals
    rename_i revisioned
    simp only [Syncer.revision, revisioned] at success
    refine keeps_call (fun before value after carried => congrArg (Store.find · name) carried.2)
      fun _ answer _ _ answers => ?_
    obtain ⟨value, rfl, rfl, -⟩ | ⟨error, rfl, -⟩ := answers
    · exact success
    · exact failure _

theorem keeps_converge (unlabelled : isManaged foreign = false) (s : Syncer) (memory : SyncMemory)
    {entries : List RemotePeerConfig} (revision : Str)
    (spared : ∀ peer ∈ entries, s.accepts peer = true → sanitizeName peer.clusterID ≠ name) :
    Keeps fetched name foreign (s.converge memory entries revision) := by
  refine keeps_call (fun before value after carried => congrArg (Store.find · name) carried)
    fun _ _ _ _ _ => (keeps_upsertLoop s spared ∅ true).bind ?_
  rintro ⟨desired, ok⟩
  dsimp only
  split
  case isTrue =>
    refine (keeps_prune unlabelled desired).bind fun result => ?_
    cases result <;> exact keeps_pure _
  case isFalse => exact keeps_pure _

theorem keeps_syncOnce (unlabelled : isManaged foreign = false) (s : Syncer) (memory : SyncMemory)
    (spares : s.Spares name memory fetched) : Keeps fetched name foreign (s.syncOnce memory) := by
  refine keeps_fetch_bind s (fun _ => keeps_pure _) ?_
  dsimp only
  split
  case isTrue => exact keeps_pure _
  case isFalse unskipped =>
    exact keeps_converge unlabelled s memory _ (spares.resolve_left unskipped)

end Kept

theorem frame_untouched (name : Str) : Frame (Untouched name) name fun _ => True where
  keeps _ _ same := managed_congr same
  fine_kept _ _ _ _ _ _ := trivial
  created _ := trivial
  rewritten _ _ _ := trivial

theorem Syncer.desiredSpec_ne_none {s : Syncer} {entries : List RemotePeerConfig} {name : Str}
    {peer : RemotePeerConfig} (mem : peer ∈ entries) (accepted : s.accepts peer = true)
    (named : sanitizeName peer.clusterID = name) : s.desiredSpec entries name ≠ none := by
  rw [desiredSpec, Ne, Option.map_eq_none_iff, List.find?_eq_none]
  intro absent
  exact absent peer (mem_reverse.mpr mem) (by simp [accepted, named])

/-- A MeshPeer without the label stays as it is, also during the passes, in every run in which no
pass writes an entry under its name.  A complete pass that does so changes it. -/
theorem foreign_peer_kept (s : Syncer) (name : Str) (foreign : StoredPeer)
    (unlabelled : isManaged foreign = false) :
    (∀ start history, start.peers.find name = some foreign →
      ReflTransGen (SparingStep s name) start history →
      history.peers.find name = some foreign ∧
      ∀ fetched, s.Spares name history.memory fetched →
        (syncWorld fetched (Untouched name)).Ensures (fun seen => seen.find name = some foreign)
          (fun _ _ => True) (s.syncOnce history.memory) history.peers) ∧
    ∀ fetched memory before result after log, ¬ s.Spares name memory fetched →
      (syncWorld fetched (Untouched name)).logged.Returns (s.syncOnce memory) (before, []) result
        (after, log) →
      log.any failed = false → after.find name ≠ some foreign := by
  refine ⟨fun start history present reached => ?_, ?_⟩
  · have kept : history.peers.find name = some foreign := by
      induction reached with
      | refl => exact present
      | tail _ step ih =>
        obtain ⟨label, taken, spares⟩ := step
        cases taken with
        | others untouched => exact (untouched : Untouched name _ _).trans ih
        | pass returned =>
          exact ((keeps_syncOnce unlabelled s _ (spares _ rfl) _ ih).with_always.returns
            returned.unlogged).1
    exact ⟨kept, fun fetched spares => keeps_syncOnce unlabelled s _ spares _ kept⟩
  · intro fetched memory before result after log overwrites returned clean found
    simp only [Syncer.Spares, not_or, Bool.not_eq_true, not_forall, not_not] at overwrites
    obtain ⟨unskipped, peer, mem, accepted, named⟩ := overwrites
    have ends :=
      ((frame_untouched name).ensures_syncOnce s memory fun _ _ => trivial).returns returned
    rw [PassEnds, unskipped, if_neg Bool.false_ne_true] at ends
    obtain ⟨new, rfl, success, -⟩ := ends
    have settled := (success clean).2
    cases wanted : s.desiredSpec fetched.1 name with
    | none => exact Syncer.desiredSpec_ne_none mem accepted named wanted
    | some spec =>
      rw [wanted] at settled
      obtain ⟨held, listed, -⟩ := settled
      obtain ⟨stored, labelled⟩ := managed_eq_some.mp listed
      obtain rfl := Option.some.inj (stored.symm.trans found)
      rw [unlabelled] at labelled
      cases labelled

/-- A MeshPeer that somebody else wrote. -/
def handWritten : StoredPeer :=
  .create [] ⟨∅, (entry "cluster-a" "key-9").spec⟩

/-- The name of that MeshPeer is not in the topology. -/
theorem foreign_peer_kept_other_name :
    let start : SyncHistory := ⟨Store.put ∅ "human" (some handWritten), ⟨[], false⟩, False⟩
    (start.passed exampleSyncer topologyA fun _ => false).peers.find "human" =
      some handWritten := by
  refine ((foreign_peer_kept exampleSyncer "human" handWritten (by decide +kernel)).1 _ _
    (by decide +kernel) (.single ⟨some topologyA,
      .pass (returns_runPass _ _ (fun _ => false) _ _ _), fun fetched same => ?_⟩)).1
  obtain rfl := Option.some.inj same
  right
  decide +kernel

/-- A MeshPeer with the name of an entry gets the label and the spec of the entry, and the pass
after the entry is gone deletes it. -/
theorem foreign_peer_overwritten :
    let start : SyncHistory :=
      ⟨Store.put ∅ "cluster-a" (some handWritten), ⟨[], false⟩, False⟩
    let stamped := start.passed exampleSyncer topologyA fun _ => false
    let pruned := stamped.passed exampleSyncer ([], "revision-c") fun _ => false
    isManaged handWritten = false ∧
    SyncStep exampleSyncer (Untouched "cluster-a") (some topologyA) start stamped ∧
    SyncStep exampleSyncer (Untouched "cluster-a") (some ([], "revision-c")) stamped
      pruned ∧
    stamped.peers.find "cluster-a" ≠ some handWritten ∧
    pruned.peers.find "cluster-a" = none :=
  ⟨by decide +kernel, .pass (returns_runPass _ _ _ _ _ _), .pass (returns_runPass _ _ _ _ _ _),
    by decide +kernel, by decide +kernel⟩

end DatawerxMesh.Sync
