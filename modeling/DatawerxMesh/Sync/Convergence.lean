import DatawerxMesh.Sync.Syncer

/-!
# What one pass does

The effect of a pass on the labelled MeshPeer of one name, while others may write MeshPeers without
the label.
-/

namespace DatawerxMesh.Sync

open Go Program World ApiServer DatawerxMesh.Topology List

variable {name : Str}

/-- A call with its answer. -/
abbrev SyncExchange := World.Exchange SyncCall SyncCall.Answer

/-- The calls of `prune`. -/
def SyncCall.prunes : SyncCall → Bool
  | list | write _ .delete => true
  | _ => false

/-- `CreateOrUpdate` creates what it does not find, and `prune` accepts that an object is gone. -/
def failed : SyncExchange → Bool
  | ⟨.get _, .error error⟩ | ⟨.write _ .delete, .error error⟩ => !error.notFound
  | ⟨.reportConflicts _, _⟩ => false
  | ⟨_, .error _⟩ => true
  | ⟨_, .ok _⟩ => false

/-- Creations and updates are not part of `prune`, and all their errors count. -/
theorem write_exchange {request : Write Str SyncedPeer} (upserts : request ≠ .delete)
    (answer : (SyncCall.write name request).Answer) :
    (SyncCall.write name request).prunes = false ∧
      failed ⟨.write name request, answer⟩ = !answer.isOk := by
  cases request with
  | delete => exact absurd rfl upserts
  | create _ _ | update _ _ _ =>
    cases answer with
    | ok _ | error _ => exact ⟨rfl, rfl⟩

/-- A phase of a pass extends the log by calls of one kind; it succeeds when none of them fails. -/
def Extends (prunes ok : Bool) (log after : List SyncExchange) : Prop :=
  ∃ new, after = log ++ new ∧ (∀ exchange ∈ new, exchange.1.prunes = prunes) ∧ ok = !new.any failed

theorem Extends.refl (prunes : Bool) (log : List SyncExchange) : Extends prunes true log log :=
  ⟨[], by simp⟩

theorem Extends.single (exchange : SyncExchange) (log : List SyncExchange) :
    Extends exchange.1.prunes (!failed exchange) log (log ++ [exchange]) :=
  ⟨[exchange], by simp⟩

variable {log : List SyncExchange}

theorem Extends.trans {prunes first second : Bool} {middle after : List SyncExchange}
    (start : Extends prunes first log middle) (rest : Extends prunes second middle after) :
    Extends prunes (first && second) log after := by
  obtain ⟨new, rfl, kind, rfl⟩ := start
  obtain ⟨more, rfl, more_kind, rfl⟩ := rest
  refine ⟨new ++ more, by simp, fun exchange mem => ?_, by simp⟩
  rcases mem_append.mp mem with earlier | later
  · exact kind exchange earlier
  · exact more_kind exchange later

theorem Extends.cons {exchange : SyncExchange} {ok : Bool} {after : List SyncExchange}
    (settled : failed exchange = false)
    (rest : Extends exchange.1.prunes ok (log ++ [exchange]) after) :
    Extends exchange.1.prunes ok log after := by
  have whole := (Extends.single exchange log).trans rest
  rwa [settled, Bool.not_false, Bool.true_and] at whole

theorem Extends.failure {exchange : SyncExchange} (failure : failed exchange = true) :
    Extends exchange.1.prunes false log (log ++ [exchange]) := by
  have single := Extends.single exchange log
  rwa [failure] at single

/-- The labelled MeshPeer of a name. -/
def managed (peers : Peers) (name : Str) : Option StoredPeer := (peers.find name).filter isManaged

/-- The spec of the last entry that is written under a name. -/
def Syncer.desiredSpec (s : Syncer) (peers : List RemotePeerConfig) (name : Str) :
    Option MeshPeerSpec :=
  (peers.reverse.find? fun peer => s.accepts peer && sanitizeName peer.clusterID == name).map
    RemotePeerConfig.spec

/-- The revision, where there is one. -/
def Syncer.revision (s : Syncer) (fetched : List RemotePeerConfig × Str) : Str :=
  if s.revisioned then fetched.2 else []

/-- What `prune` does to a MeshPeer that is not desired. -/
def stop (held : StoredPeer) : Option StoredPeer :=
  if held.deleting then some held else held.requestDelete

/-- The MeshPeer of a name, if there is one, has a property. -/
def Fine (fine : StoredPeer → Prop) (name : Str) (peers : Peers) : Prop :=
  ∀ held, peers.find name = some held → fine held

/-- Others keep the labelled MeshPeer of a name, and a property that writes of the syncer keep too.
-/
structure Frame (others : Peers → Peers → Prop) (name : Str) (fine : StoredPeer → Prop) : Prop where
  keeps : ∀ before after, others before after → managed after name = managed before name
  fine_kept : ∀ before after, others before after → Fine fine name before → Fine fine name after
  created : ∀ body, fine (.create [] body)
  rewritten : ∀ held body, fine held → fine (held.withBody body)

/-- The labelled MeshPeer after entries were written: untouched, or with the last spec. -/
def Tracks (fine : StoredPeer → Prop) (start : Option StoredPeer) :
    Option MeshPeerSpec → Option StoredPeer → Prop
  | none, now => now = start
  | some spec, now => ∃ held, now = some held ∧ held.body.spec = spec ∧ fine held

theorem isManaged_stamp (rc : RemotePeerConfig) (held : StoredPeer) :
    isManaged (held.withBody (stamp rc held.body)) = true := by
  simp [isManaged, stamp, Held.withBody]

theorem managed_eq_some {peers : Peers} {held : StoredPeer} :
    managed peers name = some held ↔ peers.find name = some held ∧ isManaged held = true := by
  rw [managed, Option.filter_eq_some_iff]

theorem find_put_of_ne (peers : Peers) {target : Str} (differs : target ≠ name)
    (object : Option StoredPeer) : (peers.put target object).find name = peers.find name := by
  rw [Store.find_put, Function.update_of_ne differs.symm]

section Phases

variable {fetched : List RemotePeerConfig × Str} {others : Peers → Peers → Prop} {name : Str}
  {fine : StoredPeer → Prop} {peers before after state : Peers}

/-- What a script does to the MeshPeers and to the log of calls. -/
abbrev Passes (fetched : List RemotePeerConfig × Str) (others : Peers → Peers → Prop) {α : Type}
    (script : SyncScript α) (peers : Peers) (log : List SyncExchange)
    (post : α → Peers × List SyncExchange → Prop) : Prop :=
  (syncWorld fetched others).logged.Ensures (fun _ => True) post script (peers, log)

theorem Frame.ensures_call (frame : Frame others name fine) {α : Type} {request : SyncCall}
    {next : request.Answer → SyncScript α} {post : α → Peers × List SyncExchange → Prop}
    (answered : ∀ seen answer after, managed seen name = managed peers name →
      (Fine fine name peers → Fine fine name seen) →
      Answers (request.Carried fetched) request.Missing seen answer after →
      Passes fetched others (next answer) after (log ++ [⟨request, answer⟩]) post) :
    Passes fetched others (.call request next) peers log post := by
  have stable : (syncWorld fetched others).Stable fun seen =>
      managed seen name = managed peers name ∧ (Fine fine name peers → Fine fine name seen) :=
    fun before after here step => ⟨(frame.keeps before after step).trans here.1,
      fun start => frame.fine_kept before after step (here.2 start)⟩
  exact Ensures.of_logged_call stable (fun _ _ => trivial)
    (fun seen answer after here => answered seen answer after here.1 here.2) ⟨rfl, id⟩

theorem carried_write_of_ne {target : Str} (differs : target ≠ name)
    {request : Write Str SyncedPeer} {value : Unit}
    (carried : SyncCall.Carried fetched (.write target request) before value after) :
    after.find name = before.find name := by
  obtain ⟨object, -, rfl⟩ := carried
  exact find_put_of_ne before differs object

theorem managed_congr (same : after.find name = before.find name) :
    managed after name = managed before name := by
  rw [managed, same, managed]

theorem fine_congr (same : after.find name = before.find name) (start : Fine fine name before) :
    Fine fine name after := by
  intro held found
  exact start held (same ▸ found)

/-- The outcome of an upsert: the calls that were made and, when it succeeded, the MeshPeer. -/
def Upserted (fine : StoredPeer → Prop) (name : Str) (rc : RemotePeerConfig) (peers : Peers)
    (log : List SyncExchange) (ok : Bool) (after : Peers × List SyncExchange) : Prop :=
  Extends false ok log after.2 ∧ (ok = true → Fine fine name peers → Fine fine name after.1 ∧
    Tracks fine (managed peers name)
      (if sanitizeName rc.clusterID = name then some rc.spec else none) (managed after.1 name))

section

variable (frame : Frame others name fine) (rc : RemotePeerConfig)

include frame rc

theorem Frame.ensures_write {request : Write Str SyncedPeer} (upserts : request ≠ .delete)
    (stores : sanitizeName rc.clusterID = name → ∀ seen object, Fine fine name seen →
      request.apply (seen.find name) = some object →
      ∃ held, object = some held ∧ isManaged held = true ∧ held.body.spec = rc.spec ∧ fine held) :
    Passes fetched others (.call (.write (sanitizeName rc.clusterID) request) pure) peers log
      fun result after => Upserted fine name rc peers log result.isOk after := by
  refine frame.ensures_call fun seen answer after kept fine_kept answers => ⟨trivial, ?_, ?_⟩
  · have single := Extends.single ⟨.write (sanitizeName rc.clusterID) request, answer⟩ log
    rw [(write_exchange upserts answer).1, (write_exchange upserts answer).2, Bool.not_not]
      at single
    exact single
  · intro success start
    obtain ⟨value, rfl, object, applied, rfl⟩ | ⟨error, rfl, -⟩ := answers
    · by_cases same : sanitizeName rc.clusterID = name
      · rw [same] at applied
        obtain ⟨held, rfl, labelled, spec_eq, held_fine⟩ :=
          stores same seen object (fine_kept start) applied
        have found : (seen.put (sanitizeName rc.clusterID) (some held)).find name = some held := by
          rw [same, Store.find_put, Function.update_self]
        rw [if_pos same]
        refine ⟨fun other stored => ?_, held, managed_eq_some.mpr ⟨found, labelled⟩, spec_eq,
          held_fine⟩
        obtain rfl := Option.some.inj (found.symm.trans stored)
        exact held_fine
      · have unchanged := find_put_of_ne seen same object
        rw [if_neg same]
        exact ⟨fine_congr unchanged (fine_kept start), (managed_congr unchanged).trans kept⟩
    · cases success

theorem Frame.stores_create {stored object : Option StoredPeer}
    (applied : (Write.create [] (stamp rc emptyPeer)).apply stored = some object) :
    ∃ held, object = some held ∧ isManaged held = true ∧ held.body.spec = rc.spec ∧ fine held := by
  obtain ⟨-, rfl⟩ := Write.apply_create_eq_some.mp applied
  exact ⟨_, rfl, isManaged_stamp rc (.create [] emptyPeer), rfl, frame.created _⟩

theorem Frame.stores_update {existing : StoredPeer} {seen : Peers} {object : Option StoredPeer}
    (start : Fine fine name seen)
    (applied : (Write.update existing existing.finalizers (stamp rc existing.body)).apply
      (seen.find name) = some object) :
    ∃ held, object = some held ∧ isManaged held = true ∧ held.body.spec = rc.spec ∧ fine held := by
  obtain ⟨stored, rfl⟩ := Write.apply_update_eq_some.mp applied
  exact ⟨_, existing.update_finalizers _, isManaged_stamp rc existing, rfl,
    frame.rewritten _ _ (start existing stored)⟩

theorem Frame.ensures_createOrUpdate :
    Passes fetched others (createOrUpdate (sanitizeName rc.clusterID) (stamp rc)) peers log
      fun result after => Upserted fine name rc peers log result.isOk after := by
  rw [createOrUpdate, ApiServer.createOrUpdate, Script.perform_bind]
  refine frame.ensures_call fun seen answer after kept fine_kept answers => ?_
  -- A later step starts from the state and the log after the read.
  have continued : ∀ {ok : Bool} {final : Peers × List SyncExchange}, after = seen →
      failed ⟨.get (sanitizeName rc.clusterID), answer⟩ = false →
      Upserted fine name rc after (log ++ [⟨.get (sanitizeName rc.clusterID), answer⟩]) ok final →
      Upserted fine name rc peers log ok final := by
    rintro ok final rfl read ⟨extends_, tracked⟩
    refine ⟨Extends.cons read extends_, fun success start => ?_⟩
    rw [← kept]
    exact tracked success (fine_kept start)
  obtain ⟨existing, rfl, found, rfl⟩ | ⟨error, rfl, missing, effect⟩ := answers
  · by_cases same_body : stamp rc existing.body = existing.body
    · dsimp only
      rw [if_pos same_body]
      refine ⟨trivial, continued rfl rfl ⟨Extends.refl _ _, fun _ start => ⟨start, ?_⟩⟩⟩
      by_cases same : sanitizeName rc.clusterID = name
      · rw [same] at found
        have labelled : isManaged existing = true := by
          have stamped := isManaged_stamp rc existing
          rwa [same_body] at stamped
        rw [if_pos same]
        refine ⟨existing, managed_eq_some.mpr ⟨found, labelled⟩, ?_, start existing found⟩
        rw [← same_body]
        rfl
      · rw [if_neg same]
        exact rfl
    · dsimp only
      rw [if_neg same_body]
      refine Ensures.mono ?_ fun result final => continued rfl rfl
      exact frame.ensures_write rc (by simp) fun _ _ _ fine_now =>
        frame.stores_update rc fine_now
  · have unchanged : after = seen := effect.elim id (Exists.elim · fun _ => And.right)
    by_cases absent : error.notFound = true
    · dsimp only
      rw [if_pos absent]
      have read : failed ⟨.get (sanitizeName rc.clusterID), .error error⟩ = false := by
        rw [failed, absent, Bool.not_true]
      refine Ensures.mono ?_ fun result final => continued unchanged read
      subst unchanged
      exact frame.ensures_write rc (by simp) fun _ _ _ _ => frame.stores_create rc
    · dsimp only
      rw [if_neg absent]
      rw [Bool.not_eq_true] at absent
      have failure : failed ⟨.get (sanitizeName rc.clusterID), .error error⟩ = true := by
        rw [failed, absent, Bool.not_false]
      exact ⟨trivial, Extends.failure failure, by simp [Except.isOk, Except.toBool]⟩

theorem Frame.ensures_upsert :
    Passes fetched others (upsert rc) peers log
      fun result after => Upserted fine name rc peers log result.isOk after := by
  refine Ensures.bind ((frame.ensures_createOrUpdate rc).mono fun result after done => ?_)
  cases result <;> exact ⟨trivial, done⟩

end

theorem Syncer.desiredSpec_cons (s : Syncer) (peer : RemotePeerConfig)
    (rest : List RemotePeerConfig) (name : Str) :
    s.desiredSpec (peer :: rest) name = (s.desiredSpec rest name).or
      (if s.accepts peer && sanitizeName peer.clusterID == name then some peer.spec else none) := by
  rw [desiredSpec, reverse_cons, List.find?_append, Option.map_or, List.find?_singleton,
    desiredSpec]
  split <;> rfl

theorem Tracks.or {start now : Option StoredPeer} {current next : Option MeshPeerSpec}
    {middle : Option StoredPeer} (first : Tracks fine start current middle)
    (second : Tracks fine middle next now) : Tracks fine start (next.or current) now := by
  cases next with
  | none =>
    rw [Option.none_or, (second : now = middle)]
    exact first
  | some spec => exact second

theorem Frame.ensures_upsertLoop (frame : Frame others name fine) (s : Syncer)
    (start : Option StoredPeer) (peers : List RemotePeerConfig) (desired : Finset Str) (ok : Bool)
    (current : Option MeshPeerSpec)
    (tracked : ok = true → Fine fine name state ∧ Tracks fine start current (managed state name) ∧
      (name ∈ desired ↔ current.isSome = true)) :
    Passes fetched others (s.upsertLoop peers desired ok) state log fun result after =>
      ∃ all, Extends false all log after.2 ∧ result.2 = (ok && all) ∧
        (result.2 = true → Fine fine name after.1 ∧
          Tracks fine start ((s.desiredSpec peers name).or current) (managed after.1 name) ∧
          (name ∈ result.1 ↔ ((s.desiredSpec peers name).or current).isSome = true)) := by
  induction peers generalizing desired ok current state log with
  | nil => exact ⟨trivial, true, Extends.refl _ _, (Bool.and_true ok).symm, tracked⟩
  | cons peer rest ih =>
    rw [Syncer.upsertLoop]
    by_cases accepted : s.accepts peer = true
    · rw [if_pos accepted]
      refine Ensures.bind ((frame.ensures_upsert peer).mono fun result middle upserted => ?_)
      obtain ⟨extends_, effect⟩ := upserted
      cases result with
      | error error =>
        refine (ih desired false current (by simp)).mono fun result after looped => ?_
        obtain ⟨all, rest_extends, rest_ok, -⟩ := looped
        rw [Bool.false_and] at rest_ok
        refine ⟨false, extends_.trans rest_extends, by rw [rest_ok, Bool.and_false], ?_⟩
        rw [rest_ok]
        simp
      | ok _ =>
        have tracked_next : ok = true → Fine fine name middle.1 ∧
            Tracks fine start ((if s.accepts peer && sanitizeName peer.clusterID == name then
              some peer.spec else none).or current) (managed middle.1 name) ∧
            (name ∈ insert (sanitizeName peer.clusterID) desired ↔
              ((if s.accepts peer && sanitizeName peer.clusterID == name then
                some peer.spec else none).or current).isSome = true) := by
          intro so_far
          obtain ⟨start_fine, tracks, named⟩ := tracked so_far
          obtain ⟨middle_fine, stamped⟩ := effect rfl start_fine
          simp only [accepted, Bool.true_and, beq_iff_eq]
          refine ⟨middle_fine, tracks.or stamped, ?_⟩
          rw [Finset.mem_insert, named]
          by_cases same : sanitizeName peer.clusterID = name
          · simp [same]
          · simp [same, Ne.symm same]
        refine (ih _ ok _ tracked_next).mono fun result after looped => ?_
        obtain ⟨all, rest_extends, rest_ok, rest_effect⟩ := looped
        refine ⟨all, extends_.trans rest_extends, rest_ok, ?_⟩
        rw [s.desiredSpec_cons, Option.or_assoc]
        exact rest_effect
    · rw [if_neg accepted]
      rw [Bool.not_eq_true] at accepted
      simp only [s.desiredSpec_cons, accepted, Bool.false_and, Bool.false_eq_true, if_false,
        Option.or_none]
      exact ih desired ok current tracked

theorem filter_requestDelete {held : StoredPeer} (labelled : isManaged held = true) :
    held.requestDelete.filter isManaged = held.requestDelete := by
  rw [Held.requestDelete]
  split
  case isTrue =>
    rw [Option.filter_some, if_pos]
    exact labelled
  case isFalse => rfl

theorem delete_effect {target : Str} {seen : Peers}
    {answer : (SyncCall.write target .delete).Answer}
    (answers : Answers (SyncCall.Carried fetched (.write target .delete))
      (SyncCall.write target .delete).Missing seen answer after)
    (settled : failed ⟨.write target .delete, answer⟩ = false) :
    (∀ name, name ≠ target → managed after name = managed seen name) ∧
      ∀ mp, managed seen target = some mp → mp.deleting = false →
        managed after target = stop mp := by
  obtain ⟨value, rfl, object, applied, rfl⟩ | ⟨error, rfl, missing, effect⟩ := answers
  · obtain ⟨held, stored, rfl⟩ := Write.apply_delete_eq_some.mp applied
    refine ⟨fun name differs => managed_congr (find_put_of_ne seen differs.symm _),
      fun mp listed live => ?_⟩
    obtain ⟨found, labelled⟩ := managed_eq_some.mp listed
    obtain rfl := Option.some.inj (stored.symm.trans found)
    rw [stop, live, if_neg Bool.false_ne_true, managed, Store.find_put, Function.update_self,
      filter_requestDelete labelled]
  · have gone : seen.find target = none := by
      apply missing
      rwa [failed, Bool.not_eq_false'] at settled
    have unchanged : after = seen := by
      rcases effect with same | ⟨_, object, applied, -⟩
      · exact same
      · rw [gone] at applied
        cases applied
    subst unchanged
    refine ⟨fun _ _ => rfl, fun mp listed => ?_⟩
    have found := (managed_eq_some.mp listed).1
    rw [gone] at found
    cases found

/-- What the loop over listed MeshPeers makes of the one of a name. -/
def pruned (desired : Finset Str) (items : List (Str × StoredPeer)) (name : Str)
    (now : Option StoredPeer) : Option StoredPeer :=
  if name ∈ items.map Prod.fst ∧ name ∉ desired then now.bind stop else now

section Pruned

variable {desired : Finset Str} {target : Str} {mp : StoredPeer} {rest : List (Str × StoredPeer)}

theorem pruned_cons_of_ne (differs : name ≠ target) (now : Option StoredPeer) :
    pruned desired ((target, mp) :: rest) name now = pruned desired rest name now := by
  simp only [pruned, map_cons, mem_cons, differs, false_or]

theorem pruned_cons_of_mem (keep : target ∈ desired) (now : Option StoredPeer) :
    pruned desired ((target, mp) :: rest) name now = pruned desired rest name now := by
  by_cases same : name = target
  · subst same
    rw [pruned, pruned, if_neg fun both => both.2 keep, if_neg fun both => both.2 keep]
  · exact pruned_cons_of_ne same now

theorem pruned_cons_self (drop : target ∉ desired) (now : Option StoredPeer) :
    pruned desired ((target, mp) :: rest) target now = now.bind stop :=
  if_pos ⟨mem_cons_self, drop⟩

theorem pruned_of_not_mem (fresh : target ∉ rest.map Prod.fst) (now : Option StoredPeer) :
    pruned desired rest target now = now :=
  if_neg fun both => fresh both.1

end Pruned

theorem Frame.ensures_pruneLoop (frame : Frame others name fine) (desired : Finset Str)
    (items : List (Str × StoredPeer)) (nodup : (items.map Prod.fst).Nodup)
    (listed : ∀ held, (name, held) ∈ items → managed state name = some held) :
    Passes fetched others (pruneLoop desired items) state log fun result after =>
      Extends true result.isOk log after.2 ∧ (result.isOk = true →
        managed after.1 name = pruned desired items name (managed state name)) := by
  induction items generalizing state log with
  | nil => exact ⟨trivial, Extends.refl _ _, fun _ => by simp [pruned]⟩
  | cons item rest ih =>
    obtain ⟨target, mp⟩ := item
    obtain ⟨fresh, rest_nodup⟩ := nodup_cons.mp nodup
    have rest_listed : ∀ held, (name, held) ∈ rest → managed state name = some held :=
      fun held mem => listed held (mem_cons_of_mem _ mem)
    rw [pruneLoop]
    by_cases keep : target ∈ desired
    · rw [if_pos keep, pruned_cons_of_mem keep]
      exact ih rest_nodup rest_listed
    rw [if_neg keep]
    by_cases deleting : mp.deleting = true
    · rw [if_pos deleting]
      refine (ih rest_nodup rest_listed).mono fun result after ⟨extends_, effect⟩ =>
        ⟨extends_, fun success => ?_⟩
      rw [effect success]
      by_cases same : name = target
      · subst same
        rw [pruned_of_not_mem fresh, pruned_cons_self keep, listed mp mem_cons_self,
          Option.bind_some, stop, if_pos deleting]
      · rw [pruned_cons_of_ne same]
    rw [if_neg deleting]
    refine frame.ensures_call fun seen answer after kept _ answers => ?_
    rw [Bool.not_eq_true] at deleting
    -- The rest of the loop, once the deletion of this MeshPeer is settled.
    have continued (settled : failed ⟨.write target .delete, answer⟩ = false) :
        Passes fetched others (pruneLoop desired rest) after
          (log ++ [⟨.write target .delete, answer⟩]) fun result final =>
            Extends true result.isOk log final.2 ∧ (result.isOk = true → managed final.1 name =
                pruned desired ((target, mp) :: rest) name (managed state name)) := by
      obtain ⟨other, own⟩ := delete_effect answers settled
      have listed_after : ∀ held, (name, held) ∈ rest → managed after name = some held := by
        intro held mem
        have differs : name ≠ target := by
          rintro rfl
          exact fresh (mem_map.mpr ⟨_, mem, rfl⟩)
        rw [other name differs, kept]
        exact rest_listed held mem
      refine (ih rest_nodup listed_after).mono fun result final ⟨extends_, effect⟩ =>
        ⟨Extends.cons settled extends_, fun success => ?_⟩
      rw [effect success]
      by_cases same : name = target
      · subst same
        have listed_here := listed mp mem_cons_self
        rw [own mp (kept.trans listed_here) deleting, listed_here, pruned_of_not_mem fresh,
          pruned_cons_self keep, Option.bind_some]
      · rw [other name same, kept, pruned_cons_of_ne same]
    cases answer with
    | ok _ => exact continued rfl
    | error error =>
      dsimp only
      by_cases absent : error.notFound = true
      · rw [if_pos absent]
        exact continued (by rw [failed, absent, Bool.not_true])
      · rw [if_neg absent]
        rw [Bool.not_eq_true] at absent
        have failure : failed ⟨.write target .delete, .error error⟩ = true := by
          rw [failed, absent, Bool.not_false]
        exact ⟨trivial, Extends.failure failure, by simp [Except.isOk, Except.toBool]⟩

theorem Frame.ensures_prune (frame : Frame others name fine) (desired : Finset Str) :
    Passes fetched others (prune desired) state log fun result after =>
      Extends true result.isOk log after.2 ∧ (result.isOk = true →
        managed after.1 name = if name ∈ desired then managed state name
          else (managed state name).bind stop) := by
  refine frame.ensures_call fun seen answer after kept _ answers => ?_
  have single := Extends.single ⟨.list, answer⟩ log
  obtain ⟨items, rfl, listed, rfl⟩ | ⟨error, rfl, -⟩ := answers
  · have listed_iff : ∀ held, (name, held) ∈ items ↔ managed after name = some held := by
      intro held
      rw [listed.mem_iff, Store.mem_list, managed_eq_some]
    have nodup : (items.map Prod.fst).Nodup :=
      (listed.map Prod.fst).nodup_iff.mpr (Store.nodup_list after isManaged)
    refine (frame.ensures_pruneLoop desired items nodup fun held mem =>
      (listed_iff held).mp mem).mono fun result final ⟨extends_, effect⟩ =>
      ⟨single.trans extends_, fun success => ?_⟩
    rw [effect success, kept, pruned]
    by_cases keep : name ∈ desired
    · rw [if_pos keep, if_neg fun both => both.2 keep]
    · rw [if_neg keep]
      cases labelled : managed state name with
      | none => exact ite_self _
      | some held =>
        have mem : name ∈ items.map Prod.fst :=
          mem_map.mpr ⟨_, (listed_iff held).mpr (kept.trans labelled), rfl⟩
        rw [if_pos ⟨mem, keep⟩]
  · exact ⟨trivial, single, by simp [Except.isOk, Except.toBool]⟩

/-- What a pass without failed calls makes of a labelled MeshPeer. -/
def Settled (fine : StoredPeer → Prop) (start : Option StoredPeer) :
    Option MeshPeerSpec → Option StoredPeer → Prop
  | none, now => now = start.bind stop
  | some spec, now => ∃ held, now = some held ∧ held.body.spec = spec ∧ fine held

/-- Only a pass without failed calls records its revision, and `prune` comes after no failed call.
-/
def Concludes (memory : SyncMemory) (revision : Str) (settled : Prop) (log : List SyncExchange)
    (result : SyncMemory) (after : List SyncExchange) : Prop :=
  ∃ new, after = log ++ new ∧
    (new.any failed = false → result = ⟨revision, true⟩ ∧ settled) ∧
    (new.any failed = true → result = memory) ∧
    ((∃ exchange ∈ new, failed exchange = true ∧ exchange.1.prunes = false) →
      ∀ exchange ∈ new, exchange.1.prunes = false)

theorem Frame.ensures_converge (frame : Frame others name fine) (s : Syncer) (memory : SyncMemory)
    (peers : List RemotePeerConfig) (revision : Str) (start : Fine fine name state) :
    Passes fetched others (s.converge memory peers revision) state log fun result after =>
      Concludes memory revision
        (Settled fine (managed state name) (s.desiredSpec peers name) (managed after.1 name))
        log result after.2 := by
  refine frame.ensures_call fun seen answer reported kept fine_kept answers => ?_
  obtain rfl : reported = seen := answers.effect.elim id (Exists.elim · fun _ => id)
  have report : Extends false true log (log ++ [⟨.reportConflicts (toIdentities peers), answer⟩]) :=
    Extends.single _ _
  have tracked : true = true → Fine fine name reported ∧
      Tracks fine (managed reported name) none (managed reported name) ∧
      (name ∈ (∅ : Finset Str) ↔ (none : Option MeshPeerSpec).isSome = true) :=
    fun _ => ⟨fine_kept start, rfl, by simp⟩
  refine Ensures.bind
    ((frame.ensures_upsertLoop s _ peers ∅ true none tracked).mono fun result middle looped => ?_)
  obtain ⟨desired, ok⟩ := result
  obtain ⟨all, extends_, ok_eq, effect⟩ := looped
  obtain ⟨upserts, log_eq, upsert_kind, all_eq⟩ := report.trans extends_
  rw [Option.or_none] at effect
  dsimp only at ok_eq effect ⊢
  cases ok with
  | false =>
    refine ⟨trivial, upserts, log_eq, fun clean => ?_, fun _ => rfl, fun _ => upsert_kind⟩
    rw [← ok_eq, clean] at all_eq
    cases all_eq
  | true =>
    rw [← ok_eq] at all_eq
    obtain ⟨-, tracks, named⟩ := effect rfl
    have clean : upserts.any failed = false := by
      simpa using all_eq.symm
    refine Ensures.bind ((frame.ensures_prune desired).mono fun result after pruned => ?_)
    obtain ⟨⟨deletes, after_eq, prune_kind, pruned_eq⟩, pruned_effect⟩ := pruned
    have any_eq : (upserts ++ deletes).any failed = deletes.any failed := by
      rw [any_append, clean, Bool.false_or]
    have no_upsert_failed : ¬ ∃ exchange ∈ upserts ++ deletes,
        failed exchange = true ∧ exchange.1.prunes = false := by
      rintro ⟨exchange, mem, failure, kind⟩
      rcases mem_append.mp mem with upserted | deleted
      · exact absurd failure (by simpa using any_eq_false.mp clean exchange upserted)
      · rw [prune_kind exchange deleted] at kind
        cases kind
    cases result with
    | error error =>
      refine ⟨trivial, upserts ++ deletes, ?_, fun clean_all => ?_, fun _ => rfl,
        fun failure => absurd failure no_upsert_failed⟩
      · rw [after_eq, log_eq, append_assoc]
      · rw [any_eq] at clean_all
        rw [clean_all] at pruned_eq
        cases pruned_eq
    | ok _ =>
      refine ⟨trivial, upserts ++ deletes, ?_, fun _ => ⟨rfl, ?_⟩, fun failure => ?_,
        fun failure => absurd failure no_upsert_failed⟩
      · rw [after_eq, log_eq, append_assoc]
      · rw [pruned_effect rfl]
        cases wanted : s.desiredSpec peers name with
        | none =>
          rw [wanted] at tracks named
          rw [if_neg fun mem => by simpa using named.mp mem, (tracks : _ = _), kept]
          rfl
        | some spec =>
          rw [wanted] at tracks named
          rw [if_pos (named.mpr rfl)]
          exact tracks
      · rw [any_eq] at failure
        rw [failure] at pruned_eq
        cases pruned_eq

theorem Concludes.of_extends {memory result : SyncMemory} {revision : Str} {settled : Prop}
    {middle after : List SyncExchange} (first : Extends false true log middle)
    (rest : Concludes memory revision settled middle result after) :
    Concludes memory revision settled log result after := by
  obtain ⟨calls, rfl, kind, clean⟩ := first
  obtain ⟨new, rfl, success, failure, unpruned⟩ := rest
  have calls_clean : calls.any failed = false := by
    simpa using clean.symm
  have any_eq : (calls ++ new).any failed = new.any failed := by
    rw [any_append, calls_clean, Bool.false_or]
  refine ⟨calls ++ new, append_assoc _ _ _, ?_, ?_, ?_⟩
  · rwa [any_eq]
  · rwa [any_eq]
  · rintro ⟨exchange, mem, exchange_failed, exchange_kind⟩ other other_member
    have later : exchange ∈ new := by
      refine (mem_append.mp mem).resolve_left fun earlier => ?_
      exact absurd exchange_failed (by simpa using any_eq_false.mp calls_clean exchange earlier)
    rcases mem_append.mp other_member with earlier | other_later
    · exact kind other earlier
    · exact unpruned ⟨exchange, later, exchange_failed, exchange_kind⟩ other other_later

theorem Frame.ensures_fetch (frame : Frame others name fine) (s : Syncer)
    (start : Fine fine name state) :
    Passes fetched others s.fetch state log fun result after =>
      managed after.1 name = managed state name ∧ Fine fine name after.1 ∧
        Extends false result.isOk log after.2 ∧
        ∀ value, result = .ok value → value = (fetched.1, s.revision fetched) := by
  rw [Syncer.fetch]
  split
  all_goals
    refine frame.ensures_call fun seen answer after kept fine_kept answers => ?_
    have single := Extends.single ⟨_, answer⟩ log
    obtain ⟨value, rfl, rfl, rfl⟩ | ⟨error, rfl, -, effect⟩ := answers
    · refine ⟨trivial, kept, fine_kept start, single, ?_⟩
      rintro value ⟨⟩
      simp [Syncer.revision, *]
    · have unchanged : after = seen := effect.elim id (Exists.elim · fun _ => And.right)
      subst unchanged
      exact ⟨trivial, kept, fine_kept start, single, by rintro value ⟨⟩⟩

/-- A skipped pass changes nothing, any other one concludes. -/
def PassEnds (s : Syncer) (fine : StoredPeer → Prop) (fetched : List RemotePeerConfig × Str)
    (name : Str) (memory : SyncMemory) (start : Option StoredPeer) (result : SyncMemory)
    (after : Peers × List SyncExchange) : Prop :=
  if memory.skips (s.revision fetched) then
    result = memory ∧ managed after.1 name = start ∧ ∀ exchange ∈ after.2, exchange.1.prunes = false
  else
    Concludes memory (s.revision fetched)
      (Settled fine start (s.desiredSpec fetched.1 name) (managed after.1 name)) [] result after.2

theorem Frame.ensures_syncOnce (frame : Frame others name fine) (s : Syncer) (memory : SyncMemory)
    (start : Fine fine name state) :
    Passes fetched others (s.syncOnce memory) state []
      (PassEnds s fine fetched name memory (managed state name)) := by
  refine Ensures.bind ((frame.ensures_fetch s start).mono fun result middle fetched_now => ?_)
  obtain ⟨kept, middle_fine, extends_, value_eq⟩ := fetched_now
  obtain ⟨calls, log_eq, kind, clean⟩ := extends_
  rw [nil_append] at log_eq
  cases result with
  | error error =>
    refine ⟨trivial, ?_⟩
    rw [PassEnds]
    split
    case isTrue => exact ⟨rfl, kept, log_eq ▸ kind⟩
    case isFalse =>
      refine ⟨calls, log_eq, fun none_failed => ?_, fun _ => rfl, fun _ => kind⟩
      rw [none_failed] at clean
      cases clean
  | ok value =>
    obtain rfl := value_eq value rfl
    dsimp only
    by_cases skips : memory.skips (s.revision fetched) = true
    · rw [if_pos skips]
      refine ⟨trivial, ?_⟩
      rw [PassEnds, if_pos skips]
      exact ⟨rfl, kept, log_eq ▸ kind⟩
    · rw [if_neg skips]
      refine (frame.ensures_converge s memory _ _ middle_fine).mono fun result after concludes => ?_
      rw [PassEnds, if_neg skips, ← kept]
      exact concludes.of_extends ⟨calls, log_eq, kind, clean⟩

end Phases

end DatawerxMesh.Sync
