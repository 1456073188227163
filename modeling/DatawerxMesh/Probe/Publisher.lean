import DatawerxMesh.Controllers.Failover
import Mathlib.Data.List.Chain

/-!
# Recording probe results

`NextProbeStatus` of `pkg/probe/probe.go` and `probePublisher` of `pkg/agent/agent.go`: what is
stored is late by less than the refresh time.
-/

namespace DatawerxMesh.Probe

open Go Controllers DatawerxMesh.Verify List Function

/-- `Result`, as far as the publisher reads it. -/
structure Result where
  clusterID : Str
  ok : Bool
  observedAtUnix : Int
  deriving DecidableEq

/-- When a peer was probed and when it answered. -/
structure ProbeStatus where
  lastAttemptUnix : Int
  lastSuccessUnix : Int
  deriving DecidableEq

/-- The new status, and whether to write it. -/
def nextProbeStatus (cur : ProbeStatus) (r : Result) (refresh : Int) : ProbeStatus × Bool :=
  let next : ProbeStatus :=
    ⟨r.observedAtUnix, if r.ok then r.observedAtUnix else cur.lastSuccessUnix⟩
  let wasHealthy :=
    decide (0 < cur.lastAttemptUnix) && decide (cur.lastSuccessUnix = cur.lastAttemptUnix)
  let stateFlipped := wasHealthy != r.ok
  let aged := decide (cur.lastAttemptUnix = 0) ||
    decide (refresh ≤ r.observedAtUnix - cur.lastAttemptUnix)
  (next, stateFlipped || aged)

/-- Seconds between two writes. -/
def probeStatusRefreshSeconds : Int := 60

/-- The peer with a new status. -/
def withProbeStatus (mp : ProbedPeer) (next : ProbeStatus) : ProbedPeer :=
  { mp with lastProbeAttempt := next.lastAttemptUnix, lastProbeTime := next.lastSuccessUnix }

/-- The merge patch from `base` to `mp`, applied to what is stored: equal fields are not sent. -/
def mergePatch (base mp stored : ProbedPeer) : ProbedPeer :=
  { stored with
    lastProbeAttempt := if mp.lastProbeAttempt ≠ base.lastProbeAttempt then mp.lastProbeAttempt
      else stored.lastProbeAttempt
    lastProbeTime := if mp.lastProbeTime ≠ base.lastProbeTime then mp.lastProbeTime
      else stored.lastProbeTime }

/-- A peer as it is in memory and as it is stored. -/
structure Entry where
  mp : ProbedPeer
  stored : ProbedPeer
  deriving DecidableEq

/-- The loop for the peer of the result.  An accepted patch is read back, a refused one only logged.
-/
def publishEntry (res : Result) (accepted : Bool) (entry : Entry) : Entry :=
  let cur : ProbeStatus := ⟨entry.mp.lastProbeAttempt, entry.mp.lastProbeTime⟩
  let folded := nextProbeStatus cur res probeStatusRefreshSeconds
  if folded.2 then
    let mp := withProbeStatus entry.mp folded.1
    if accepted then
      let stored := mergePatch entry.mp mp entry.stored
      ⟨stored, stored⟩
    else ⟨mp, entry.stored⟩
  else entry

/-- The last match is changed. -/
def modifyLast {α : Type} (test : α → Bool) (change : α → α) : List α → List α
  | [] => []
  | first :: rest =>
    if rest.any test then first :: modifyLast test change rest
    else if test first then change first :: rest
    else first :: rest

/-- The body of the loop: `byCluster` has the last peer of a cluster. -/
def publishResult (entries : List Entry) (res : Result × Bool) : List Entry :=
  modifyLast (fun entry => entry.mp.spec.clusterID == res.1.clusterID)
    (publishEntry res.1 res.2) entries

/-- One call of the publisher: the answer to the listing, and the results with the answers to their
patches. -/
structure Cycle where
  listing : Except Str Unit
  results : List (Result × Bool)

/-- `probePublisher`: its error and what is stored after it. -/
def probePublisher (cycle : Cycle) (store : List ProbedPeer) :
    Except Str Unit × List ProbedPeer :=
  match cycle.listing with
  | .error e => (.error ("listing MeshPeers to publish probe results: " ++ e), store)
  | .ok () =>
    (.ok (), (cycle.results.foldl publishResult (store.map fun mp => ⟨mp, mp⟩)).map Entry.stored)

/-- What is stored after a sequence of calls. -/
def publishAll (cycles : List Cycle) (store : List ProbedPeer) : List ProbedPeer :=
  cycles.foldl (fun store cycle => (probePublisher cycle store).2) store

/-- No call of the cycle fails. -/
def Cycle.Succeeds (cycle : Cycle) : Prop :=
  cycle.listing = .ok () ∧ ∀ res ∈ cycle.results, res.2 = true

variable (p : ProbedPeer) (r : Result)

/-- The stored peer after a result has been recorded. -/
def record : ProbedPeer :=
  let folded := nextProbeStatus ⟨p.lastProbeAttempt, p.lastProbeTime⟩ r probeStatusRefreshSeconds
  if folded.2 then withProbeStatus p folded.1 else p

/-- A result changes its own peer only. -/
def recordOwn : ProbedPeer :=
  if p.spec.clusterID = r.clusterID then record p r else p

/-- The results of a cluster in a sequence of calls. -/
def heard (id : Str) (cycles : List Cycle) : List Result :=
  (cycles.flatMap fun cycle => cycle.results.map Prod.fst).filter fun r => r.clusterID = id

theorem modifyLast_eq_map {α : Type} {test : α → Bool} (change : α → α) {items : List α}
    (unique : items.Pairwise fun a b => ¬ (test a = true ∧ test b = true)) :
    modifyLast test change items =
      items.map fun item => if test item then change item else item := by
  induction items with
  | nil => rfl
  | cons first rest ih =>
    obtain ⟨apart, later⟩ := pairwise_cons.mp unique
    rw [modifyLast, map_cons, ih later]
    split
    case isTrue found =>
      obtain ⟨item, mem, passed⟩ := any_eq_true.mp found
      rw [if_neg fun first_passed => apart item mem ⟨first_passed, passed⟩]
    case isFalse missing =>
      have kept : (rest.map fun item => if test item then change item else item) = rest := by
        refine (map_congr_left fun item mem => ?_).trans rest.map_id
        exact if_neg fun passed => missing (any_eq_true.mpr ⟨item, mem, passed⟩)
      rw [kept]
      split <;> rfl

@[simp] theorem spec_record : (record p r).spec = p.spec := by
  rw [record]
  split <;> rfl

@[simp] theorem spec_recordOwn : (recordOwn p r).spec = p.spec := by
  rw [recordOwn]
  split
  · exact spec_record p r
  · rfl

theorem publishEntry_accepted (res : Result) (p : ProbedPeer) :
    publishEntry res true ⟨p, p⟩ = ⟨record p res, record p res⟩ := by
  rw [publishEntry, record]
  split
  case isTrue changed =>
    have patched : mergePatch p (withProbeStatus p
        (nextProbeStatus ⟨p.lastProbeAttempt, p.lastProbeTime⟩ res probeStatusRefreshSeconds).1) p =
        withProbeStatus p (nextProbeStatus ⟨p.lastProbeAttempt, p.lastProbeTime⟩ res
            probeStatusRefreshSeconds).1 := by
      rw [mergePatch, withProbeStatus, ProbedPeer.mk.injEq]
      refine ⟨rfl, ?_, ?_⟩
      · dsimp only
        split <;> simp_all
      · dsimp only
        split <;> simp_all
    rw [if_pos rfl, patched]
  case isFalse => rfl

section

variable {store : List ProbedPeer} (distinct : (store.map fun p => p.spec.clusterID).Nodup)
  (res : Result)

include distinct res

theorem publishResult_accepted :
    publishResult (store.map fun mp => ⟨mp, mp⟩) (res, true) =
      (store.map fun p => recordOwn p res).map fun mp => ⟨mp, mp⟩ := by
  have unique : (store.map fun mp => Entry.mk mp mp).Pairwise fun a b =>
      ¬ ((a.mp.spec.clusterID == res.clusterID) = true ∧
        (b.mp.spec.clusterID == res.clusterID) = true) := by
    rw [pairwise_map]
    refine (pairwise_map.mp distinct).imp fun {a b} apart same => apart ?_
    rw [beq_iff_eq, beq_iff_eq] at same
    exact same.1.trans same.2.symm
  rw [publishResult, modifyLast_eq_map _ unique, map_map, map_map]
  refine map_congr_left fun p _ => ?_
  simp only [comp_apply, beq_iff_eq, recordOwn, publishEntry_accepted]
  split <;> rfl

theorem distinct_recordOwn :
    ((store.map fun p => recordOwn p res).map fun p => p.spec.clusterID).Nodup := by
  rw [map_map]
  simpa [comp_def] using distinct

end

theorem foldl_publishResult {results : List (Result × Bool)}
    (accepted : ∀ res ∈ results, res.2 = true) {store : List ProbedPeer}
    (distinct : (store.map fun p => p.spec.clusterID).Nodup) :
    (results.foldl publishResult (store.map fun mp => ⟨mp, mp⟩)).map Entry.stored =
      store.map fun p => (results.map Prod.fst).foldl recordOwn p := by
  induction results generalizing store with
  | nil => simp [comp_def]
  | cons first rest ih =>
    obtain ⟨res, answer⟩ := first
    obtain rfl : answer = true := accepted _ mem_cons_self
    rw [foldl_cons, publishResult_accepted distinct,
      ih (fun other mem => accepted other (mem_cons_of_mem _ mem))
        (distinct_recordOwn distinct res), map_map]
    rfl

theorem foldl_recordOwn_spec (results : List Result) (p : ProbedPeer) :
    (results.foldl recordOwn p).spec = p.spec := by
  induction results generalizing p with
  | nil => rfl
  | cons first rest ih => rw [foldl_cons, ih, spec_recordOwn]

theorem foldl_recordOwn (results : List Result) (p : ProbedPeer) :
    results.foldl recordOwn p =
      (results.filter fun r => r.clusterID = p.spec.clusterID).foldl record p := by
  induction results generalizing p with
  | nil => rfl
  | cons first rest ih =>
    rw [foldl_cons, ih, spec_recordOwn, recordOwn]
    by_cases own : p.spec.clusterID = first.clusterID
    · rw [if_pos own, filter_cons_of_pos (by simp [own]), foldl_cons]
    · rw [if_neg own, filter_cons_of_neg (by simpa using Ne.symm own)]

theorem publishAll_eq {cycles : List Cycle} (succeed : ∀ cycle ∈ cycles, cycle.Succeeds)
    {store : List ProbedPeer} (distinct : (store.map fun p => p.spec.clusterID).Nodup) :
    publishAll cycles store =
      store.map fun p => (heard p.spec.clusterID cycles).foldl record p := by
  have recorded : publishAll cycles store = store.map fun p =>
      (cycles.flatMap fun cycle => cycle.results.map Prod.fst).foldl recordOwn p := by
    induction cycles generalizing store with
    | nil => simp [publishAll]
    | cons first rest ih =>
      obtain ⟨listed, accepted⟩ := succeed first mem_cons_self
      have stored : (probePublisher first store).2 =
          store.map fun p => (first.results.map Prod.fst).foldl recordOwn p := by
        rw [probePublisher, listed]
        exact foldl_publishResult accepted distinct
      have still_distinct : ((store.map fun p =>
          (first.results.map Prod.fst).foldl recordOwn p).map fun p =>
            p.spec.clusterID).Nodup := by
        rw [map_map]
        simpa [comp_def, foldl_recordOwn_spec] using distinct
      have later := ih (fun cycle mem => succeed cycle (mem_cons_of_mem _ mem)) still_distinct
      rw [publishAll, foldl_cons, stored]
      refine later.trans ?_
      simp only [map_map, flatMap_cons, foldl_append]
      rfl
  rw [recorded]
  exact map_congr_left fun p _ => foldl_recordOwn _ p

/-- What the stored status tells about the results that led to it. -/
structure Tracks (results : List Result) (p : ProbedPeer) : Prop where
  unprobed : results = [] → p.lastProbeAttempt = 0
  fresh : ∀ last ∈ results.getLast?, 0 < p.lastProbeAttempt ∧
    last.observedAtUnix - p.lastProbeAttempt < probeStatusRefreshSeconds
  success : p.lastProbeTime = 0 ∨ ∃ r ∈ results, r.ok = true ∧ r.observedAtUnix = p.lastProbeTime
  healthy : (∀ r ∈ results, r.ok = true) → p.lastProbeTime = p.lastProbeAttempt

theorem record_cases :
    record p r = withProbeStatus p ⟨r.observedAtUnix,
        if r.ok then r.observedAtUnix else p.lastProbeTime⟩ ∨
      record p r = p ∧ p.lastProbeAttempt ≠ 0 ∧
        r.observedAtUnix - p.lastProbeAttempt < probeStatusRefreshSeconds := by
  rw [record]
  split
  case isTrue => exact .inl rfl
  case isFalse suppressed =>
    right
    simp only [nextProbeStatus, Bool.or_eq_true, decide_eq_true_eq, not_or, not_le] at suppressed
    exact ⟨rfl, suppressed.2.1, suppressed.2.2⟩

theorem Tracks.record {results : List Result} {p : ProbedPeer} (tracks : Tracks results p)
    {r : Result} (positive : 0 < r.observedAtUnix) : Tracks (results ++ [r]) (record p r) := by
  have nonempty : results ++ [r] ≠ [] := append_ne_nil_of_right_ne_nil _ (cons_ne_nil _ _)
  rcases record_cases p r with stored | ⟨kept, attempted, young⟩
  · rw [stored]
    refine ⟨fun empty => absurd empty nonempty, ?_, ?_, ?_⟩
    · intro last is_last
      rw [List.getLast?_concat, Option.mem_some_iff] at is_last
      subst is_last
      refine ⟨positive, ?_⟩
      simp [withProbeStatus, probeStatusRefreshSeconds]
    · cases r_ok : r.ok with
      | true => exact .inr ⟨r, by simp, r_ok, by simp [withProbeStatus]⟩
      | false =>
        refine tracks.success.imp id ?_
        rintro ⟨other, mem, other_ok, same⟩
        exact ⟨other, mem_append_left _ mem, other_ok, same⟩
    · intro all_ok
      simp [withProbeStatus, all_ok r (by simp)]
  · rw [kept]
    refine ⟨fun empty => absurd empty nonempty, ?_, ?_, ?_⟩
    · intro last is_last
      rw [List.getLast?_concat, Option.mem_some_iff] at is_last
      subst is_last
      refine ⟨?_, young⟩
      cases before : results.getLast? with
      | none => exact absurd (tracks.unprobed (List.getLast?_eq_none_iff.mp before)) attempted
      | some previous => exact (tracks.fresh previous before).1
    · refine tracks.success.imp id ?_
      rintro ⟨other, mem, other_ok, same⟩
      exact ⟨other, mem_append_left _ mem, other_ok, same⟩
    · intro all_ok
      exact tracks.healthy fun other mem => all_ok other (mem_append_left _ mem)

theorem tracks_foldl {p : ProbedPeer} (never : p.lastProbeAttempt = 0 ∧ p.lastProbeTime = 0)
    {results : List Result} (positive : ∀ r ∈ results, 0 < r.observedAtUnix) :
    Tracks results (results.foldl Probe.record p) := by
  induction results using List.reverseRecOn with
  | nil => exact ⟨fun _ => never.1, by simp, .inl never.2, fun _ => never.2.trans never.1.symm⟩
  | append_singleton results r ih =>
    rw [foldl_append]
    exact (ih fun other mem => positive other (mem_append_left _ mem)).record
      (positive r (by simp))

/-- Results at positive times that do not go back, with bounded gaps. -/
structure Steady (gap : Int) (results : List Result) : Prop where
  positive : ∀ r ∈ results, 0 < r.observedAtUnix
  paced : results.IsChain fun a b => a.observedAtUnix ≤ b.observedAtUnix ∧
    b.observedAtUnix - a.observedAtUnix ≤ gap

/-- Until the next result the clock is at most a gap ahead of the latest one. -/
theorem Steady.le_latest {gap : Int} {past future : List Result}
    (steady : Steady gap (past ++ future)) {latest : Result} (is_latest : latest ∈ past.getLast?)
    {t : Int} (ahead : ∀ r ∈ future, t ≤ r.observedAtUnix)
    (bounded : ∀ r ∈ (past ++ future).getLast?, t ≤ r.observedAtUnix + gap) :
    t ≤ latest.observedAtUnix + gap := by
  cases future with
  | nil =>
    rw [append_nil] at bounded
    exact bounded latest is_latest
  | cons next rest =>
    have paced := (isChain_append.mp steady.paced).2.2 latest is_latest next rfl
    have not_yet := ahead next mem_cons_self
    omega

@[simp] theorem status_record : (record p r).status = p.status := by
  rw [record]
  split <;> rfl

theorem foldl_record_keeps (results : List Result) (p : ProbedPeer) :
    (results.foldl record p).spec = p.spec ∧ (results.foldl record p).status = p.status := by
  induction results generalizing p with
  | nil => exact ⟨rfl, rfl⟩
  | cons first rest ih =>
    rw [foldl_cons, (ih _).1, (ih _).2, spec_record, status_record]
    exact ⟨rfl, rfl⟩

/-- Suppressed writes do not mislead the failover: while the calls `done` have been made and those
of `todo` have not, a peer that answered all its probes is not down, and a peer that has answered
none after some time is down once that time is out of the window. -/
theorem failover_follows_probes (gap staleAfter : Int)
    (fits : probeStatusRefreshSeconds + gap ≤ staleAfter) (store : List ProbedPeer)
    (distinct : (store.map fun p => p.spec.clusterID).Nodup) (p : ProbedPeer) (listed : p ∈ store)
    (never : p.lastProbeAttempt = 0 ∧ p.lastProbeTime = 0) (not_error : p.status.phase ≠ .error)
    (done todo : List Cycle) (succeed : ∀ cycle ∈ done, cycle.Succeeds)
    (steady : Steady gap (heard p.spec.clusterID (done ++ todo)))
    (begun : heard p.spec.clusterID done ≠ []) (t : Int)
    (behind : ∀ r ∈ heard p.spec.clusterID done, r.observedAtUnix ≤ t)
    (ahead : ∀ r ∈ heard p.spec.clusterID todo, t ≤ r.observedAtUnix)
    (bounded : ∀ r ∈ (heard p.spec.clusterID (done ++ todo)).getLast?, t ≤ r.observedAtUnix + gap) :
    ∃ q ∈ publishAll done store, q.spec = p.spec ∧ q.status = p.status ∧
      ((∀ r ∈ heard p.spec.clusterID done, r.ok = true) → clusterDown q t staleAfter = false) ∧
      ∀ s, (∀ r ∈ heard p.spec.clusterID done, s < r.observedAtUnix → r.ok = false) →
        s + staleAfter < t → clusterDown q t staleAfter = true := by
  have heard_append : heard p.spec.clusterID (done ++ todo) =
      heard p.spec.clusterID done ++ heard p.spec.clusterID todo := by
    rw [heard, flatMap_append, filter_append]
    rfl
  rw [heard_append] at steady bounded
  generalize heard p.spec.clusterID todo = future at steady ahead bounded
  have stored := publishAll_eq succeed distinct
  have positive : ∀ r ∈ heard p.spec.clusterID done, 0 < r.observedAtUnix := fun r mem =>
    steady.positive r (mem_append_left _ mem)
  have tracks := tracks_foldl never positive
  have keeps := foldl_record_keeps (heard p.spec.clusterID done) p
  refine ⟨(heard p.spec.clusterID done).foldl record p, ?_, keeps.1, keeps.2, ?_⟩
  · rw [stored]
    exact mem_map_of_mem listed
  generalize heard p.spec.clusterID done = past at *
  generalize past.foldl record p = q at *
  -- the stored attempt is less than the refresh time behind the latest result
  obtain ⟨latest, is_latest⟩ : ∃ latest, latest ∈ past.getLast? :=
    ⟨_, List.getLast?_eq_some_getLast begun⟩
  obtain ⟨attempted, young⟩ := tracks.fresh latest is_latest
  have soon := steady.le_latest is_latest ahead bounded
  have latest_member := mem_of_mem_getLast? is_latest
  have t_positive : 0 < t :=
    lt_of_lt_of_le (positive latest latest_member) (behind latest latest_member)
  have still_ok : q.status.phase ≠ .error := keeps.2 ▸ not_error
  have window : t - q.lastProbeAttempt ≤ staleAfter := by omega
  have down_iff := clusterDown_of_attempted still_ok t_positive ⟨attempted, window⟩
  refine ⟨fun all_ok => ?_, fun s failing late => down_iff.mpr ?_⟩
  · have same := tracks.healthy all_ok
    rw [← Bool.not_eq_true, down_iff, same, not_not]
    exact ⟨attempted, window⟩
  · rintro ⟨succeeded, in_window⟩
    rcases tracks.success with none_yet | ⟨r, mem, r_ok, at_r⟩
    · omega
    · have before : ¬ s < r.observedAtUnix := by
        intro after
        rw [failing r mem after] at r_ok
        cases r_ok
      omega

/-- A successful call with one result for the cluster `east`. -/
def eastCycle (ok : Bool) (time : Int) : Cycle := ⟨.ok (), [(⟨"east", ok, time⟩, true)]⟩

/-- The cluster `east` before it is probed, with an old handshake. -/
def eastPeer : ProbedPeer := Slo.observedPeer "east" .connected 5 0 0

/-- Two answered probes, then two unanswered ones.  The second result is not written. -/
theorem failover_follows_probes_east :
    (publishAll [eastCycle true 100, eastCycle true 150] [eastPeer]).map
        (fun q => (q.lastProbeAttempt, q.lastProbeTime)) = [(100, 100)] ∧
      (∃ q ∈ publishAll [eastCycle true 100, eastCycle true 150] [eastPeer],
        q.spec = eastPeer.spec ∧ clusterDown q 350 300 = false) ∧
      ∃ q ∈ publishAll [eastCycle true 100, eastCycle false 300, eastCycle false 450] [eastPeer],
        q.spec = eastPeer.spec ∧ clusterDown q 500 300 = true := by
  have all_succeed : ∀ ok time, (eastCycle ok time).Succeeds := fun _ _ =>
    ⟨rfl, fun res mem => by rw [mem_singleton.mp mem]⟩
  refine ⟨by decide, ?_, ?_⟩
  · obtain ⟨q, mem, spec_eq, -, healthy, -⟩ := failover_follows_probes 200 300 (by decide)
      [eastPeer] (by decide) eastPeer (by decide) (by decide) (by decide)
      [eastCycle true 100, eastCycle true 150] [eastCycle false 350] (by simp [all_succeed])
      ⟨by decide, by decide⟩ (by decide) 350 (by decide) (by decide) (by decide)
    exact ⟨q, mem, spec_eq, healthy (by decide)⟩
  · obtain ⟨q, mem, spec_eq, -, -, failing⟩ := failover_follows_probes 200 300 (by decide)
      [eastPeer] (by decide) eastPeer (by decide) (by decide) (by decide)
      [eastCycle true 100, eastCycle false 300, eastCycle false 450] [] (by simp [all_succeed])
      ⟨by decide, by decide⟩ (by decide) 500 (by decide) (by decide) (by decide)
    exact ⟨q, mem, spec_eq, failing 100 (by decide) (by decide)⟩

end DatawerxMesh.Probe
