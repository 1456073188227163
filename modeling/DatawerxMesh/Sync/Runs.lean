import DatawerxMesh.Sync.Convergence

/-!
# Runs of the syncer

Passes one after the other, with failing calls and with other writers.  A pass that fails half way
leaves the last applied revision.
-/

namespace DatawerxMesh.Sync

open Go Program ApiServer Relation DatawerxMesh.Topology Option

/-- Nothing happens in between. -/
def nobody (_ _ : Peers) : Prop := False

theorem frame_nobody (name : Str) : Frame nobody name fun held => held.deleting = false where
  keeps _ _ impossible := impossible.elim
  fine_kept _ _ impossible := impossible.elim
  created _ := rfl
  rewritten _ _ live := live

theorem stop_eq_some {held stopped : StoredPeer} (left : stop held = some stopped) :
    stopped.deleting = true := by
  rw [stop] at left
  split at left
  case isTrue deleting =>
    obtain rfl := Option.some.inj left
    exact deleting
  case isFalse => exact (Held.requestDelete_eq_some left).1

section

variable {start now : Option StoredPeer} {wanted : Option MeshPeerSpec}
  (settled : Settled (fun held => held.deleting = false) start wanted now)

include settled

theorem Settled.labelled_iff (spec : MeshPeerSpec) :
    (∃ held, now = some held ∧ held.deleting = false ∧ held.body.spec = spec) ↔
      wanted = some spec := by
  cases wanted with
  | none =>
    refine iff_of_false ?_ (by simp)
    rintro ⟨held, listed, live, -⟩
    rw [(settled : _ = _)] at listed
    obtain ⟨stale, -, stopped⟩ := bind_eq_some_iff.mp listed
    rw [stop_eq_some stopped] at live
    cases live
  | some wanted_spec =>
    obtain ⟨held, listed, spec_eq, live⟩ := settled
    constructor
    · rintro ⟨other, listed_too, -, rfl⟩
      obtain rfl := Option.some.inj (listed.symm.trans listed_too)
      rw [spec_eq]
    · rintro ⟨⟩
      exact ⟨held, listed, live, spec_eq⟩

theorem Settled.lingering
    (undeleted : ∀ stale, start = some stale → stale.deleting = false) {held : StoredPeer}
    (listed : now = some held) (deleting : held.deleting = true) :
    wanted = none ∧ ∃ stale, start = some stale ∧ stale.requestDelete = some held := by
  cases wanted with
  | none =>
    rw [(settled : _ = _)] at listed
    obtain ⟨stale, was_listed, stopped⟩ := bind_eq_some_iff.mp listed
    rw [stop, undeleted stale was_listed] at stopped
    exact ⟨rfl, stale, was_listed, stopped⟩
  | some wanted_spec =>
    obtain ⟨other, listed_too, -, live⟩ := settled
    obtain rfl := Option.some.inj (listed.symm.trans listed_too)
    rw [live] at deleting
    cases deleting

end

section PassEnds

variable {s : Syncer} {fine : StoredPeer → Prop} {fetched : List RemotePeerConfig × Str}
  {name : Str} {memory result : SyncMemory} {start : Option StoredPeer}
  {after : Peers × List SyncExchange}

theorem PassEnds.keeps (ends : PassEnds s fine fetched name memory start result after)
    (failure : after.2.any failed = true) : result = memory := by
  rw [PassEnds] at ends
  split at ends
  case isTrue => exact ends.1
  case isFalse =>
    obtain ⟨new, log_eq, -, failing, -⟩ := ends
    rw [log_eq] at failure
    exact failing failure

theorem PassEnds.unpruned (ends : PassEnds s fine fetched name memory start result after)
    (failure : ∃ exchange ∈ after.2, failed exchange = true ∧ exchange.1.prunes = false) :
    ∀ exchange ∈ after.2, exchange.1.prunes = false := by
  rw [PassEnds] at ends
  split at ends
  case isTrue => exact ends.2.2
  case isFalse =>
    obtain ⟨new, log_eq, -, -, unpruned⟩ := ends
    rw [log_eq] at failure ⊢
    exact unpruned failure

end PassEnds

/-- A pass on MeshPeers of which none is being deleted.  Without failed calls the labelled MeshPeers
that are not being deleted are those of the fetched entries, each with its last spec; all others are
stale ones that a finalizer holds back.  A pass with a failed call keeps the memory, and deletes
nothing when the fetch or an upsert failed. -/
theorem pass_settles_or_keeps (s : Syncer) (memory result : SyncMemory)
    (fetched : List RemotePeerConfig × Str) (before after : Peers) (log : List SyncExchange)
    (undeleted : ∀ name held, before.find name = some held → held.deleting = false)
    (returned : (syncWorld fetched nobody).logged.Returns (s.syncOnce memory) (before, []) result
      (after, log)) :
    (memory.skips (s.revision fetched) = false → log.any failed = false →
      result = ⟨s.revision fetched, true⟩ ∧
      (∀ name spec, (∃ held, managed after name = some held ∧ held.deleting = false ∧
        held.body.spec = spec) ↔ s.desiredSpec fetched.1 name = some spec) ∧
      ∀ name held, managed after name = some held → held.deleting = true →
        s.desiredSpec fetched.1 name = none ∧
          ∃ stale, managed before name = some stale ∧ stale.requestDelete = some held) ∧
    (log.any failed = true → result = memory) ∧
    ((∃ exchange ∈ log, failed exchange = true ∧ exchange.1.prunes = false) →
      ∀ exchange ∈ log, ∀ name, exchange.1 ≠ .write name .delete) := by
  have ends (name : Str) : PassEnds s (fun held => held.deleting = false) fetched name memory
      (managed before name) result (after, log) :=
    ((frame_nobody name).ensures_syncOnce s memory (undeleted name)).returns returned
  refine ⟨fun unskipped clean => ?_, fun failure => ?_,
    fun failure exchange mem name deletes => ?_⟩
  · have concludes (name : Str) : result = ⟨s.revision fetched, true⟩ ∧
        Settled (fun held => held.deleting = false) (managed before name)
          (s.desiredSpec fetched.1 name) (managed after name) := by
      have concluded := ends name
      rw [PassEnds, unskipped] at concluded
      obtain ⟨new, rfl, success, -⟩ := concluded
      exact success clean
    refine ⟨(concludes []).1, fun name spec => (concludes name).2.labelled_iff spec,
      fun name held listed deleting => (concludes name).2.lingering ?_ listed deleting⟩
    exact fun stale was_listed => undeleted name stale (managed_eq_some.mp was_listed).1
  · exact (ends []).keeps failure
  · have kind := (ends []).unpruned failure exchange mem
    rw [deletes] at kind
    cases kind

/-- An API server that refuses the writes to some names and otherwise obeys. -/
def answerCall (fetched : List RemotePeerConfig × Str) (refuses : Str → Bool) :
    (call : SyncCall) → Peers → call.Answer × Peers
  | .fetchTopology, peers => (.ok fetched.1, peers)
  | .fetchTopologyWithRevision, peers => (.ok fetched, peers)
  | .reportConflicts _, peers => (.ok (), peers)
  | .get name, peers =>
    match peers.find name with
    | some held => (.ok held, peers)
    | none => (.error ⟨true, []⟩, peers)
  | .write name request, peers =>
    if refuses name then (.error ⟨false, []⟩, peers)
    else
      match request.apply (peers.find name) with
      | some object => (.ok (), peers.put name object)
      | none => (.error ⟨(peers.find name).isNone, []⟩, peers)
  | .list, peers => (.ok (peers.list isManaged), peers)

theorem respond_answerCall (fetched : List RemotePeerConfig × Str) (refuses : Str → Bool)
    (others : Peers → Peers → Prop) (call : SyncCall) (peers : Peers) :
    (syncWorld fetched others).respond call peers (answerCall fetched refuses call peers).1
      (answerCall fetched refuses call peers).2 := by
  cases call with
  | fetchTopology | fetchTopologyWithRevision => exact Or.inl ⟨_, rfl, rfl, rfl⟩
  | reportConflicts identities => exact Or.inl ⟨(), rfl, rfl⟩
  | get name =>
    simp only [answerCall]
    cases found : peers.find name with
    | some held => exact Or.inl ⟨held, rfl, found, rfl⟩
    | none => exact Or.inr ⟨_, rfl, fun _ => found, Or.inl rfl⟩
  | write name request =>
    simp only [answerCall]
    split
    case isTrue => exact Or.inr ⟨_, rfl, by simp, Or.inl rfl⟩
    case isFalse =>
      cases applied : request.apply (peers.find name) with
      | some object => exact Or.inl ⟨(), rfl, object, applied, rfl⟩
      | none => exact Or.inr ⟨_, rfl, isNone_iff_eq_none.mp, Or.inl rfl⟩
  | list => exact Or.inl ⟨_, rfl, List.Perm.refl _, rfl⟩

/-- The memory, the MeshPeers and the log after a pass. -/
def runPass (s : Syncer) (fetched : List RemotePeerConfig × Str) (refuses : Str → Bool)
    (memory : SyncMemory) (peers : Peers) : SyncMemory × (Peers × List SyncExchange) :=
  (s.syncOnce memory).exec (World.logging (answerCall fetched refuses)) (peers, [])

theorem returns_runPass (s : Syncer) (fetched : List RemotePeerConfig × Str) (refuses : Str → Bool)
    (others : Peers → Peers → Prop) (memory : SyncMemory) (peers : Peers) :
    (syncWorld fetched others).logged.Returns (s.syncOnce memory) (peers, [])
      (runPass s fetched refuses memory peers).1 (runPass s fetched refuses memory peers).2 :=
  World.returns_logging (respond_answerCall fetched refuses others) _ _

/-- A syncer that uses revisions. -/
def exampleSyncer : Syncer := ⟨"cluster-local", true⟩

/-- An entry of a topology. -/
def entry (clusterID publicKey : Str) : RemotePeerConfig :=
  ⟨clusterID, publicKey, "192.0.2.1:51820", ["10.1.0.0/16"], []⟩

/-- A MeshPeer that the syncer wrote. -/
def syncedPeer (finalizers : List Str) (clusterID publicKey : Str) : StoredPeer :=
  .create finalizers (stamp (entry clusterID publicKey) emptyPeer)

/-- A topology of one cluster. -/
def topologyA : List RemotePeerConfig × Str :=
  ([entry "cluster-a" "key-1"], "revision-a")

/-- One MeshPeer of a cluster that is no longer in the topology. -/
def stalePeers (finalizers : List Str) : Peers :=
  Store.put ∅ "cluster-old" (some (syncedPeer finalizers "cluster-old" "key-0"))

theorem stalePeers_undeleted (finalizers : List Str) (name : Str) (held : StoredPeer)
    (found : (stalePeers finalizers).find name = some held) : held.deleting = false := by
  rw [stalePeers, Store.find_put] at found
  by_cases same : name = "cluster-old"
  · rw [same] at found
    obtain rfl := Option.some.inj found
    rfl
  · rw [Function.update_of_ne same] at found
    cases found

/-- A fresh syncer removes the stale MeshPeer and writes the other one. -/
theorem pass_settles_or_keeps_fresh :
    let pass := runPass exampleSyncer topologyA (fun _ => false) ⟨[], false⟩ (stalePeers [])
    pass.1 = ⟨"revision-a", true⟩ ∧
      ∀ name spec, (∃ held, managed pass.2.1 name = some held ∧ held.deleting = false ∧
        held.body.spec = spec) ↔ exampleSyncer.desiredSpec topologyA.1 name = some spec := by
  obtain ⟨settles, -⟩ := pass_settles_or_keeps exampleSyncer ⟨[], false⟩ _ topologyA
    (stalePeers []) _ _ (stalePeers_undeleted []) (returns_runPass _ _ (fun _ => false) _ _ _)
  obtain ⟨recorded, labelled, -⟩ := settles (by decide +kernel) (by decide +kernel)
  exact ⟨recorded, labelled⟩

/-- A stale MeshPeer with a finalizer still has the label after the pass. -/
theorem stale_peer_lingers :
    let pass := runPass exampleSyncer topologyA (fun _ => false) ⟨[], false⟩
      (stalePeers ["networking.datawerx.io/meshpeer-cleanup"])
    (∀ name held, (stalePeers ["networking.datawerx.io/meshpeer-cleanup"]).find name =
      some held → held.deleting = false) ∧
    (syncWorld topologyA nobody).logged.Returns (exampleSyncer.syncOnce ⟨[], false⟩)
      (stalePeers ["networking.datawerx.io/meshpeer-cleanup"], []) pass.1 pass.2 ∧
    SyncMemory.skips ⟨[], false⟩ (exampleSyncer.revision topologyA) = false ∧
    pass.2.2.any failed = false ∧
    exampleSyncer.desiredSpec topologyA.1 "cluster-old" = none ∧
    (managed pass.2.1 "cluster-old").isSome = true :=
  ⟨stalePeers_undeleted _, returns_runPass _ _ _ _ _ _, by decide +kernel, by decide +kernel,
    by decide +kernel, by decide +kernel⟩

/-- The MeshPeers after a full converge in which no call fails. -/
def Syncer.fullConverge (s : Syncer) (fetched : List RemotePeerConfig × Str) (peers : Peers) :
    Peers :=
  ((s.converge ⟨[], false⟩ fetched.1 (s.revision fetched)).exec
    (answerCall fetched fun _ => false) peers).2

section FullConverge

variable (fetched : List RemotePeerConfig × Str)

theorem exec_createOrUpdate_isOk (name : Str) (mutate : SyncedPeer → SyncedPeer) (peers : Peers) :
    ((createOrUpdate name mutate).exec (answerCall fetched fun _ => false) peers).1.isOk =
      true := by
  rw [createOrUpdate, ApiServer.createOrUpdate, Script.perform_bind]
  cases found : peers.find name with
  | none =>
    simp [Script.perform, Script.exec, answerCall, found, Write.apply, Except.toBool]
  | some existing =>
    simp only [Script.exec, answerCall, found]
    split
    case isTrue => rfl
    case isFalse =>
      simp [Script.perform, Script.exec, answerCall, found, Write.apply, Except.toBool]

theorem exec_upsert_eq (rc : RemotePeerConfig) (peers : Peers) :
    ((upsert rc).exec (answerCall fetched fun _ => false) peers).1 = .ok () := by
  have written := exec_createOrUpdate_isOk fetched (sanitizeName rc.clusterID) (stamp rc) peers
  rw [upsert, Script.exec_bind]
  cases result : ((createOrUpdate (sanitizeName rc.clusterID) (stamp rc)).exec
      (answerCall fetched fun _ => false) peers).1 with
  | ok _ => rfl
  | error error =>
    rw [result] at written
    cases written

theorem exec_upsertLoop_ok (s : Syncer) (entries : List RemotePeerConfig) (desired : Finset Str)
    (ok : Bool) (peers : Peers) :
    ((s.upsertLoop entries desired ok).exec (answerCall fetched fun _ => false) peers).1.2 =
      ok := by
  induction entries generalizing desired peers with
  | nil => rfl
  | cons peer rest ih =>
    rw [Syncer.upsertLoop]
    split
    case isTrue =>
      rw [Script.exec_bind, exec_upsert_eq]
      exact ih _ _
    case isFalse => exact ih desired peers

theorem exec_pruneLoop_isOk (desired : Finset Str) (items : List (Str × StoredPeer))
    (peers : Peers) :
    ((pruneLoop desired items).exec (answerCall fetched fun _ => false) peers).1.isOk = true := by
  induction items generalizing peers with
  | nil => rfl
  | cons item rest ih =>
    rw [pruneLoop]
    split
    case isTrue => exact ih peers
    case isFalse =>
      split
      case isTrue => exact ih peers
      case isFalse =>
        simp only [Script.exec, answerCall]
        cases found : peers.find item.1 with
        | some held => exact ih _
        | none => exact ih _

theorem exec_converge_eq (s : Syncer) (peers : Peers) :
    ((s.converge ⟨[], false⟩ fetched.1 (s.revision fetched)).exec
      (answerCall fetched fun _ => false) peers).1 = ⟨s.revision fetched, true⟩ := by
  have all_written := exec_upsertLoop_ok fetched s fetched.1 ∅ true peers
  rw [Syncer.converge, Script.exec]
  simp only [answerCall]
  rw [Script.exec_bind, Syncer.upsertDesired]
  generalize (s.upsertLoop fetched.1 ∅ true).exec (answerCall fetched fun _ => false) peers =
    upserted at all_written ⊢
  obtain ⟨⟨desired, ok⟩, middle⟩ := upserted
  obtain rfl : ok = true := all_written
  have all_pruned := exec_pruneLoop_isOk fetched desired (middle.list isManaged) middle
  simp only [if_true]
  rw [Script.exec_bind, prune, Script.exec]
  simp only [answerCall]
  generalize (pruneLoop desired (middle.list isManaged)).exec (answerCall fetched fun _ => false)
    middle = pruned at all_pruned ⊢
  obtain ⟨⟨error⟩ | ⟨⟩, final⟩ := pruned
  · cases all_pruned
  · rfl

end FullConverge

/-- Others write only MeshPeers without the label. -/
def Unlabelled (before after : Peers) : Prop := managed after = managed before

theorem frame_unlabelled (name : Str) : Frame Unlabelled name fun _ => True where
  keeps _ _ same := congrFun same name
  fine_kept _ _ _ _ _ _ := trivial
  created _ := trivial
  rewritten _ _ _ := trivial

/-- The specs that the syncer manages. -/
def labelledSpecs (peers : Peers) (name : Str) : Option MeshPeerSpec :=
  (managed peers name).map fun held => held.body.spec

/-- The labelled MeshPeers are those of a list of entries, besides ones that are being deleted. -/
def Syncer.Converged (s : Syncer) (entries : List RemotePeerConfig) (peers : Peers) : Prop :=
  ∀ name, match s.desiredSpec entries name with
    | none => ∀ held, managed peers name = some held → held.deleting = true
    | some spec => labelledSpecs peers name = some spec

theorem Syncer.converged_of_settled {s : Syncer} {entries : List RemotePeerConfig}
    {before after : Peers} {fine : StoredPeer → Prop}
    (settled : ∀ name, Settled fine (managed before name) (s.desiredSpec entries name)
      (managed after name)) : s.Converged entries after := by
  intro name
  have settled_here := settled name
  cases wanted : s.desiredSpec entries name with
  | none =>
    rw [wanted] at settled_here
    intro held listed
    rw [(settled_here : _ = _)] at listed
    obtain ⟨stale, -, stopped⟩ := bind_eq_some_iff.mp listed
    exact stop_eq_some stopped
  | some spec =>
    rw [wanted] at settled_here
    obtain ⟨held, listed, spec_eq, -⟩ := settled_here
    change labelledSpecs after name = some spec
    rw [labelledSpecs, listed, map_some, spec_eq]

theorem Syncer.Converged.fullConverge {s : Syncer} {fetched : List RemotePeerConfig × Str}
    {peers : Peers} (converged : s.Converged fetched.1 peers) :
    labelledSpecs (s.fullConverge fetched peers) = labelledSpecs peers := by
  obtain ⟨value_eq, peers_eq⟩ := World.exec_logging (answerCall fetched fun _ => false)
    (s.converge ⟨[], false⟩ fetched.1 (s.revision fetched)) peers []
  rw [exec_converge_eq] at value_eq
  funext name
  have concludes := ((frame_unlabelled name).ensures_converge s ⟨[], false⟩ fetched.1
    (s.revision fetched) (fun _ _ => trivial)).returns (World.returns_logging
      (respond_answerCall fetched (fun _ => false) Unlabelled) _ (peers, []))
  rw [value_eq, peers_eq] at concludes
  obtain ⟨new, -, success, failure, -⟩ := concludes
  have settled : Settled (fun _ => True) (managed peers name) (s.desiredSpec fetched.1 name)
      (managed (s.fullConverge fetched peers) name) := by
    cases clean : new.any failed with
    | false => exact (success clean).2
    | true => cases congrArg SyncMemory.applied (failure clean)
  have converged_here := converged name
  cases wanted : s.desiredSpec fetched.1 name with
  | none =>
    rw [wanted] at settled converged_here
    rw [labelledSpecs, labelledSpecs, (settled : _ = _)]
    cases listed : managed peers name with
    | none => rfl
    | some held => rw [bind_some, stop, if_pos (converged_here held listed)]
  | some spec =>
    rw [wanted] at settled converged_here
    obtain ⟨held, listed, spec_eq, -⟩ := settled
    rw [labelledSpecs, listed, map_some, spec_eq]
    exact converged_here.symm

/-- Disturbed: a pass since the last complete one changed a labelled MeshPeer. -/
structure SyncHistory where
  peers : Peers
  memory : SyncMemory
  disturbed : Prop

/-- A pass is complete when it is not skipped and no call fails. -/
def Syncer.Completes (s : Syncer) (fetched : List RemotePeerConfig × Str) (memory : SyncMemory)
    (log : List SyncExchange) : Prop :=
  memory.skips (s.revision fetched) = false ∧ log.any failed = false

/-- A revision stands for its entries. -/
def Syncer.Serves (s : Syncer) (entriesAt : Str → List RemotePeerConfig)
    (fetched : List RemotePeerConfig × Str) : Prop :=
  s.revision fetched ≠ [] → fetched.1 = entriesAt (s.revision fetched)

/-- Passes, labelled with what the control plane serves, and writes of others between them. -/
inductive SyncStep (s : Syncer) (others : Peers → Peers → Prop) :
    Option (List RemotePeerConfig × Str) → SyncHistory → SyncHistory → Prop
  | pass {before : SyncHistory} {fetched : List RemotePeerConfig × Str} {memory : SyncMemory}
      {peers : Peers} {log : List SyncExchange}
      (returned : (syncWorld fetched others).logged.Returns (s.syncOnce before.memory)
        (before.peers, []) memory (peers, log)) :
      SyncStep s others (some fetched) before ⟨peers, memory,
        ¬ s.Completes fetched before.memory log ∧
          (before.disturbed ∨ managed peers ≠ managed before.peers)⟩
  | others {before : SyncHistory} {peers : Peers} (acts : others before.peers peers) :
      SyncStep s others none before ⟨peers, before.memory, before.disturbed⟩

/-- Revisions determine the entries, and only the syncer writes labelled MeshPeers. -/
def RevisionStep (s : Syncer) (entriesAt : Str → List RemotePeerConfig)
    (before after : SyncHistory) : Prop :=
  ∃ label, SyncStep s Unlabelled label before after ∧ ∀ fetched ∈ label, s.Serves entriesAt fetched

/-- As long as nothing was disturbed, the labelled MeshPeers are those of the recorded revision. -/
def SyncHistory.Recorded (s : Syncer) (entriesAt : Str → List RemotePeerConfig)
    (history : SyncHistory) : Prop :=
  history.memory.applied = true → history.memory.lastRevision ≠ [] → ¬ history.disturbed →
    s.Converged (entriesAt history.memory.lastRevision) history.peers

theorem Syncer.Converged.congr {s : Syncer} {entries : List RemotePeerConfig} {before after : Peers}
    (same : managed after = managed before) (converged : s.Converged entries before) :
    s.Converged entries after := by
  intro name
  have here := converged name
  rw [labelledSpecs, ← same] at here
  exact here

theorem RevisionStep.recorded {s : Syncer} {entriesAt : Str → List RemotePeerConfig}
    {before after : SyncHistory} (step : RevisionStep s entriesAt before after)
    (recorded : before.Recorded s entriesAt) : after.Recorded s entriesAt := by
  obtain ⟨label, taken, determined⟩ := step
  cases taken with
  | others unlabelled =>
    exact fun applied revision undisturbed =>
      (recorded applied revision undisturbed).congr unlabelled
  | @pass _ fetched memory peers log returned =>
    have ends (name : Str) : PassEnds s (fun _ => True) fetched name before.memory
        (managed before.peers name) memory (peers, log) :=
      ((frame_unlabelled name).ensures_syncOnce s before.memory fun _ _ => trivial).returns returned
    intro applied revision undisturbed
    by_cases complete : s.Completes fetched before.memory log
    · have settled (name : Str) : memory = ⟨s.revision fetched, true⟩ ∧ Settled (fun _ => True)
          (managed before.peers name) (s.desiredSpec fetched.1 name) (managed peers name) := by
        have concluded := ends name
        rw [PassEnds, complete.1] at concluded
        obtain ⟨new, rfl, success, -⟩ := concluded
        exact success complete.2
      have memory_eq := (settled []).1
      subst memory_eq
      rw [← determined fetched rfl revision]
      exact Syncer.converged_of_settled fun name => (settled name).2
    · have calm : ¬ before.disturbed ∧ managed peers = managed before.peers := by
        simpa [complete] using undisturbed
      have memory_eq : memory = before.memory := by
        have concluded := ends []
        rw [PassEnds] at concluded
        split at concluded
        case isTrue => exact concluded.1
        case isFalse unskipped =>
          rw [Bool.not_eq_true] at unskipped
          obtain ⟨new, rfl, -, failing, -⟩ := concluded
          refine failing ?_
          rw [← Bool.not_eq_false]
          exact fun clean => complete ⟨unskipped, clean⟩
      subst memory_eq
      exact (recorded applied revision calm.1).congr calm.2

/-- A pass that is skipped while nothing is disturbed: the labelled MeshPeers are what a full
converge of the fetched entries would make of them. -/
theorem skipped_pass_sound (s : Syncer) (entriesAt : Str → List RemotePeerConfig)
    (start : SyncHistory) (fresh : start.memory.applied = false) (history : SyncHistory)
    (reached : ReflTransGen (RevisionStep s entriesAt) start history)
    (fetched : List RemotePeerConfig × Str) (serves : s.Serves entriesAt fetched)
    (skipped : history.memory.skips (s.revision fetched) = true)
    (undisturbed : ¬ history.disturbed) :
    labelledSpecs (s.fullConverge fetched history.peers) = labelledSpecs history.peers := by
  have recorded : history.Recorded s entriesAt := by
    clear skipped undisturbed
    induction reached with
    | refl =>
      intro applied
      rw [fresh] at applied
      cases applied
    | tail _ step ih => exact step.recorded ih
  simp only [SyncMemory.skips, Bool.and_eq_true, bne_iff_ne, beq_iff_eq] at skipped
  obtain ⟨⟨applied, nonempty⟩, same⟩ := skipped
  apply Syncer.Converged.fullConverge
  rw [serves nonempty, same]
  exact recorded applied (same ▸ nonempty) undisturbed

/-- The state of a syncer that has just started. -/
def freshHistory : SyncHistory := ⟨∅, ⟨[], false⟩, False⟩

/-- The history after a pass. -/
def SyncHistory.passed (s : Syncer) (fetched : List RemotePeerConfig × Str) (refuses : Str → Bool)
    (history : SyncHistory) : SyncHistory :=
  let pass := runPass s fetched refuses history.memory history.peers
  ⟨pass.2.1, pass.1, ¬ s.Completes fetched history.memory pass.2.2 ∧
    (history.disturbed ∨ managed pass.2.1 ≠ managed history.peers)⟩

/-- A topology in which a peer has another key and there is a second peer. -/
def topologyB : List RemotePeerConfig × Str :=
  ([entry "cluster-a" "key-2", entry "cluster-c" "key-3"], "revision-b")

/-- The entries of the two revisions. -/
def exampleEntries (revision : Str) : List RemotePeerConfig :=
  if revision = "revision-a" then topologyA.1 else topologyB.1

theorem revisionStep_passed {fetched : List RemotePeerConfig × Str}
    (serves : exampleSyncer.Serves exampleEntries fetched) (refuses : Str → Bool)
    (history : SyncHistory) :
    RevisionStep exampleSyncer exampleEntries history
      (history.passed exampleSyncer fetched refuses) := by
  refine ⟨some fetched, .pass (returns_runPass _ _ refuses _ _ _), fun served same => ?_⟩
  obtain rfl := Option.some.inj same
  exact serves

theorem serves_topologyA : exampleSyncer.Serves exampleEntries topologyA :=
  fun _ => by decide +kernel

theorem serves_topologyB : exampleSyncer.Serves exampleEntries topologyB :=
  fun _ => by decide +kernel

/-- The same revision twice. -/
theorem skipped_pass_sound_unchanged :
    let applied := freshHistory.passed exampleSyncer topologyA fun _ => false
    applied.memory.skips (exampleSyncer.revision topologyA) = true ∧
      labelledSpecs (exampleSyncer.fullConverge topologyA applied.peers) =
        labelledSpecs applied.peers := by
  have complete : exampleSyncer.Completes topologyA freshHistory.memory
      (runPass exampleSyncer topologyA (fun _ => false) ⟨[], false⟩ ∅).2.2 :=
    ⟨by decide +kernel, by decide +kernel⟩
  refine ⟨by decide +kernel, ?_⟩
  exact skipped_pass_sound exampleSyncer exampleEntries freshHistory rfl _
    (.single (revisionStep_passed serves_topologyA (fun _ => false) freshHistory)) topologyA
    serves_topologyA (by decide +kernel) fun disturbed => disturbed.1 complete

/-- A pass for the second revision fails half way, and then the control plane goes back to the first
one: the pass is skipped, and the peer keeps the key of the second revision. -/
theorem skipped_pass_keeps_other_revision :
    let broken := (freshHistory.passed exampleSyncer topologyA fun _ => false).passed exampleSyncer
      topologyB fun name => name == str "cluster-c"
    ReflTransGen (RevisionStep exampleSyncer exampleEntries) freshHistory broken ∧
    exampleSyncer.Serves exampleEntries topologyA ∧
    broken.memory.skips (exampleSyncer.revision topologyA) = true ∧
    (labelledSpecs broken.peers (str "cluster-a")).map MeshPeerSpec.publicKey =
      some (str "key-2") ∧
    (labelledSpecs (exampleSyncer.fullConverge topologyA broken.peers) (str "cluster-a")).map
      MeshPeerSpec.publicKey = some (str "key-1") := by
  refine ⟨?_, serves_topologyA, by decide +kernel, by decide +kernel, by decide +kernel⟩
  exact .tail (.single (revisionStep_passed serves_topologyA _ _))
    (revisionStep_passed serves_topologyB _ _)

end DatawerxMesh.Sync
