import DatawerxMesh.Controllers.PeerLifecycle
import Mathlib.Data.Finset.Card

/-!
# One tunnel per live peer

While a peer is not being deleted, at most one of the keys that were passed for it is programmed:
the cached one.
-/

namespace DatawerxMesh.Controllers

open Go Program ApiServer Relation

/-- The state of a device and those it was in before. -/
structure Journal where
  now : Device
  past : List Device

/-- The devices so far, the latest first. -/
def Journal.moments (journal : Journal) : List Device := journal.now :: journal.past

/-- The device changes. -/
def Journal.turn (journal : Journal) (next : Device) : Journal := ⟨next, journal.moments⟩

/-- A data plane that keeps a journal, with an entry for every call. -/
def journaled (dataPlane : PeerDataPlane Device) : PeerDataPlane Journal where
  configurePeer peerKey endpoint allowedIPs journal :=
    let (next, error) := dataPlane.configurePeer peerKey endpoint allowedIPs journal.now
    (journal.turn next, error)
  removePeer peerKey journal :=
    let (next, error) := dataPlane.removePeer peerKey journal.now
    (journal.turn next, error)
  peerHandshake peerKey journal := dataPlane.peerHandshake peerKey journal.now

/-- The environment with a journal of its data plane. -/
def Environment.journaled (env : Environment Device) : Environment Journal :=
  { env with dataPlane := Controllers.journaled env.dataPlane }

/-- `ConfigurePeer` has no effect when it fails; `RemovePeer` may have one. -/
structure Environment.Atomic (env : Environment Device) : Prop extends env.Lawful where
  configure_failed : ∀ key endpoint allowedIPs before after error,
    env.dataPlane.configurePeer key endpoint allowedIPs before = (after, some error) →
    after.programmed = before.programmed

/-- At most one of the keys that were passed is programmed. -/
def Device.Single (device : Device) : Prop := (device.passed ∩ device.programmed).card ≤ 1

/-- A key of the peer is programmed only while it is the cached one. -/
structure Device.Follows (own : Set Str) (cached : Option Str) (device : Device) : Prop where
  passed : ∀ key ∈ device.passed, key ∈ own
  programmed : ∀ key ∈ own, key ∈ device.programmed → cached = some key

/-- The device follows the cached key, and had at most one tunnel so far. -/
structure Journal.Kept (own : Set Str) (cached : Option Str) (journal : Journal) : Prop where
  now : journal.now.Follows own cached
  past : ∀ moment ∈ journal.past, moment.Single

section Calls

variable {own : Set Str} {cached : Option Str} {device : Device} {journal after : Journal}
  {env : Environment Device} {key : Str} {error : Option Str}

theorem Device.Follows.single (follows : device.Follows own cached) : device.Single := by
  refine Finset.card_le_one.mpr fun key key_mem other other_mem => ?_
  rw [Finset.mem_inter] at key_mem other_mem
  have key_cached := follows.programmed key (follows.passed key key_mem.1) key_mem.2
  have other_cached := follows.programmed other (follows.passed other other_mem.1) other_mem.2
  exact Option.some.inj (key_cached.symm.trans other_cached)

theorem Device.Follows.eq_singleton (follows : device.Follows own (some key))
    (passed : key ∈ device.passed) (programmed : key ∈ device.programmed) :
    device.passed ∩ device.programmed = {key} := by
  refine Finset.eq_singleton_iff_unique_mem.mpr ⟨Finset.mem_inter.mpr ⟨passed, programmed⟩, ?_⟩
  intro other mem
  rw [Finset.mem_inter] at mem
  exact (Option.some.inj (follows.programmed other (follows.passed other mem.1) mem.2)).symm

theorem Device.Follows.shrink {next : Device} (follows : device.Follows own cached)
    (passed : next.passed = device.passed) (shrinks : next.programmed ⊆ device.programmed) :
    next.Follows own cached :=
  ⟨passed ▸ follows.passed, fun key owned mem => follows.programmed key owned (shrinks mem)⟩

theorem Journal.Kept.single (kept : journal.Kept own cached) :
    ∀ moment ∈ journal.moments, moment.Single := by
  intro moment mem
  rcases List.mem_cons.mp mem with rfl | earlier
  · exact kept.now.single
  · exact kept.past moment earlier

theorem Journal.Kept.turn {next : Device} {cached' : Option Str} (kept : journal.Kept own cached)
    (follows : next.Follows own cached') : (journal.turn next).Kept own cached' :=
  ⟨follows, kept.single⟩

theorem Environment.Atomic.remove_kept (atomic : env.Atomic) (kept : journal.Kept own cached)
    (removed : env.journaled.dataPlane.removePeer key journal = (after, error)) :
    after.Kept own cached ∧
      (error = none → after.now.programmed = journal.now.programmed.erase key) := by
  obtain ⟨⟨next, outcome⟩, called⟩ :
      ∃ answer, env.dataPlane.removePeer key journal.now = answer := ⟨_, rfl⟩
  have turned : env.journaled.dataPlane.removePeer key journal = (journal.turn next, outcome) := by
    simp only [journaled, Controllers.journaled, called]
  obtain ⟨rfl, rfl⟩ := Prod.mk.inj (turned.symm.trans removed)
  obtain ⟨passed, shrinks, erased⟩ := atomic.toLawful.remove_effect called
  exact ⟨kept.turn (kept.now.shrink passed shrinks), erased⟩

/-- A failing call leaves the cached key; a successful one is followed by caching the new one. -/
theorem Environment.Atomic.configure_kept (atomic : env.Atomic) {endpoint : Str}
    {allowedIPs : List Str} (kept : journal.Kept own cached) (owned : key ∈ own)
    (only : ∀ other ∈ own, other ∈ journal.now.programmed → other = key)
    (configured : env.journaled.dataPlane.configurePeer key endpoint allowedIPs journal =
      (after, error)) :
    (error ≠ none → after.Kept own cached) ∧
      (error = none → after.Kept own (some key) ∧ key ∈ after.now.passed ∧
        key ∈ after.now.programmed) := by
  obtain ⟨⟨next, outcome⟩, called⟩ :
      ∃ answer, env.dataPlane.configurePeer key endpoint allowedIPs journal.now = answer := ⟨_, rfl⟩
  have turned : env.journaled.dataPlane.configurePeer key endpoint allowedIPs journal =
      (journal.turn next, outcome) := by
    simp only [journaled, Controllers.journaled, called]
  obtain ⟨rfl, rfl⟩ := Prod.mk.inj (turned.symm.trans configured)
  obtain ⟨passed, effect⟩ := atomic.configure _ _ _ _ _ _ called
  have passed_own : ∀ other ∈ next.passed, other ∈ own := by
    intro other mem
    rw [passed, Finset.mem_insert] at mem
    rcases mem with rfl | earlier
    · exact owned
    · exact kept.now.passed other earlier
  constructor
  · intro failed
    obtain ⟨text, rfl⟩ := Option.ne_none_iff_exists'.mp failed
    have same := atomic.configure_failed _ _ _ _ _ _ called
    refine kept.turn ⟨passed_own, fun other other_own mem => ?_⟩
    exact kept.now.programmed other other_own (same ▸ mem)
  · intro success
    have added := effect.resolve_right fun failed => failed.1 success
    refine ⟨kept.turn ⟨passed_own, fun other other_own mem => ?_⟩, ?_, ?_⟩
    · rw [added, Finset.mem_insert] at mem
      rcases mem with rfl | earlier
      · rfl
      · rw [only other other_own earlier]
    · exact passed ▸ Finset.mem_insert_self key _
    · exact added ▸ Finset.mem_insert_self key _

end Calls

section Reconcile

variable {own : Set Str} {env : Environment Device} {state : AgentState Journal}

theorem removeRotated_kept (atomic : env.Atomic) {peer : MeshPeer} {publicKey : Str}
    (kept : state.dataPlane.Kept own (state.keyIndex.lookup (peerKey peer))) {after : Journal}
    {error : Option Str}
    (removed : removeRotated env.journaled state peer publicKey = (after, error)) :
    after.Kept own (state.keyIndex.lookup (peerKey peer)) ∧
      (error = none → ∀ key ∈ own, key ∈ after.now.programmed → key = publicKey) := by
  rw [removeRotated] at removed
  cases cached : state.keyIndex.lookup (peerKey peer) with
  | none =>
    rw [cached] at removed kept
    obtain ⟨rfl, rfl⟩ := Prod.mk.inj removed
    refine ⟨kept, fun _ key owned mem => ?_⟩
    cases kept.now.programmed key owned mem
  | some old =>
    rw [cached] at removed kept
    dsimp only at removed
    split at removed
    case isTrue rotated =>
      obtain ⟨kept_after, erased⟩ := atomic.remove_kept kept removed
      refine ⟨kept_after, fun success key owned mem => ?_⟩
      rw [erased success, Finset.mem_erase] at mem
      exact absurd (Option.some.inj (kept.now.programmed key owned mem.2)).symm mem.1
    case isFalse same =>
      obtain ⟨rfl, rfl⟩ := Prod.mk.inj removed
      refine ⟨kept, fun _ key owned mem => ?_⟩
      rw [← Option.some.inj (kept.now.programmed key owned mem), not_not.mp same]

theorem program_kept (atomic : env.Atomic) {peer : MeshPeer} {plan : Topology.Plan}
    {routeCIDRs : List Str} {phase : MeshPeerPhase} {message : Str}
    (owned : plan.publicKey ∈ own)
    (kept : state.dataPlane.Kept own (state.keyIndex.lookup (peerKey peer)))
    {result : ApplyResult Journal}
    (programmed : program env.journaled state peer plan routeCIDRs phase message = result) :
    result.state.dataPlane.Kept own (result.state.keyIndex.lookup (peerKey peer)) ∧
      (result.error = none →
        result.state.dataPlane.now.passed ∩ result.state.dataPlane.now.programmed =
          {plan.publicKey}) := by
  subst programmed
  rw [program]
  split
  case h_1 rotated error removed =>
    exact ⟨(removeRotated_kept atomic kept removed).1, fun success => absurd success fail_error⟩
  case h_2 rotated removed =>
    obtain ⟨kept_rotated, only⟩ := removeRotated_kept atomic kept removed
    split
    case h_1 configured error configured_eq =>
      obtain ⟨failed, -⟩ := atomic.configure_kept kept_rotated owned (only rfl) configured_eq
      exact ⟨failed (Option.some_ne_none error), fun success => absurd success fail_error⟩
    case h_2 configured configured_eq =>
      obtain ⟨-, succeeded⟩ := atomic.configure_kept kept_rotated owned (only rfl) configured_eq
      obtain ⟨kept_configured, in_passed, in_programmed⟩ := succeeded rfl
      refine ⟨?_, fun _ => kept_configured.now.eq_singleton in_passed in_programmed⟩
      dsimp only
      rwa [AList.lookup_insert]

/-- A stored version is not being deleted, and has one of the peer's keys or none. -/
structure IsVersion (name : NamespacedName) (own : Set Str) (held : HeldPeer) : Prop where
  live : held.deleting = false
  named : peerKey held.body = name
  keyed : held.body.spec.publicKey ≠ [] → held.body.spec.publicKey ∈ own

theorem MeshPeerReconciler.reconcileApply_kept {r : MeshPeerReconciler} (atomic : env.Atomic)
    {peer : MeshPeer} (keyed : peer.spec.publicKey ≠ [] → peer.spec.publicKey ∈ own)
    (kept : state.dataPlane.Kept own (state.keyIndex.lookup (peerKey peer)))
    {result : ApplyResult Journal}
    (applied : r.reconcileApply env.journaled state peer = .ok result) :
    result.state.dataPlane.Kept own (result.state.keyIndex.lookup (peerKey peer)) ∧
      (result.error = none →
        result.state.dataPlane.now.passed ∩ result.state.dataPlane.now.programmed =
          {peer.spec.publicKey}) := by
  obtain ⟨_, rfl⟩ | ⟨nonempty, _, _, _, -, programmed⟩ := reconcileApply_cases applied
  · exact ⟨kept, fun success => absurd success fail_error⟩
  · have key_eq := planPeer_publicKey peer.spec r.localCIDRs nonempty
    rw [← key_eq] at keyed ⊢
    exact program_kept atomic (keyed (key_eq ▸ nonempty)) kept programmed.symm

theorem reconcileGone_kept (atomic : env.Atomic) {name : NamespacedName}
    (kept : state.dataPlane.Kept own (state.keyIndex.lookup name)) :
    (reconcileGone env.journaled name state).state.dataPlane.Kept own
      ((reconcileGone env.journaled name state).state.keyIndex.lookup name) := by
  rw [reconcileGone]
  split
  case h_1 => exact kept
  case h_2 key cached =>
    rw [cached] at kept
    split
    case h_1 after error removed =>
      dsimp only
      rw [cached]
      exact (atomic.remove_kept kept removed).1
    case h_2 after removed =>
      -- The cached key was the only one, so none is left.
      obtain ⟨kept_after, erased⟩ := atomic.remove_kept kept removed
      refine ⟨⟨kept_after.now.passed, fun other owned mem => ?_⟩, kept_after.past⟩
      rw [erased rfl, Finset.mem_erase] at mem
      exact absurd (Option.some.inj (kept.now.programmed other owned mem.2)).symm mem.1

/-- What one call does, whatever version it reads, or if it reads none. -/
theorem MeshPeerReconciler.reconcile_kept {r : MeshPeerReconciler} {api : PeerApi}
    {name : NamespacedName} {observed : Option HeldPeer} (atomic : env.Atomic)
    (versioned : ∀ held, observed = some held → IsVersion name own held)
    (kept : state.dataPlane.Kept own (state.keyIndex.lookup name))
    {result : ReconcileResult Journal}
    (returned : r.reconcile env.journaled api name observed state = .ok result) :
    result.state.dataPlane.Kept own (result.state.keyIndex.lookup name) ∧
      ∀ held, observed = some held → meshPeerFinalizer ∈ held.finalizers → result.error = none →
        result.state.dataPlane.now.passed ∩ result.state.dataPlane.now.programmed =
          {held.body.spec.publicKey} := by
  unfold reconcile at returned
  split at returned
  case h_1 =>
    obtain rfl := Outcome.ok.inj returned
    exact ⟨kept, fun _ _ _ success => by cases success⟩
  case h_2 =>
    split at returned
    case h_1 =>
      obtain rfl := Outcome.ok.inj returned
      exact ⟨reconcileGone_kept atomic kept, fun _ impossible => by cases impossible⟩
    case h_2 held =>
      obtain ⟨live, named, keyed⟩ := versioned held rfl
      simp only [live] at returned
      split at returned
      case isTrue impossible => cases impossible
      case isFalse =>
        split at returned
        case isTrue missing =>
          obtain rfl := Outcome.ok.inj returned
          have state_eq : (addFinalizer api held state).state = state := by
            rw [addFinalizer]
            split <;> rfl
          rw [state_eq]
          refine ⟨kept, fun other same finalized => ?_⟩
          obtain rfl := Option.some.inj same
          exact absurd finalized missing
        case isFalse =>
          obtain ⟨applied, applied_eq, rest⟩ := Outcome.bind_eq_ok.mp returned
          obtain rfl := Outcome.ok.inj rest
          rw [← named] at kept ⊢
          obtain ⟨kept_after, exact_key⟩ := reconcileApply_kept atomic keyed kept applied_eq
          refine ⟨kept_after, fun other same _ success => ?_⟩
          obtain rfl := Option.some.inj same
          exact exact_key success

end Reconcile

/-- The versions of a live peer that were stored so far, and the process. -/
structure LivePeer where
  versions : List HeldPeer
  agent : AgentState Journal

/-- Before the peer is created: none of its keys is passed, programmed or cached. -/
structure LivePeer.Uncreated (name : NamespacedName) (own : Set Str) (peer : LivePeer) : Prop where
  versions : peer.versions = []
  passed : peer.agent.dataPlane.now.passed = ∅
  programmed : ∀ key ∈ own, key ∉ peer.agent.dataPlane.now.programmed
  past : peer.agent.dataPlane.past = []
  cached : peer.agent.keyIndex.lookup name = none

/-- A call may read any version that was stored, or none, and writes back another version. -/
inductive LiveStep (r : MeshPeerReconciler) (name : NamespacedName) (own : Set Str) :
    LivePeer → LivePeer → Prop
  | write {peer : LivePeer} {held : HeldPeer} (version : IsVersion name own held) :
      LiveStep r name own peer { peer with versions := held :: peer.versions }
  | reconcile {peer : LivePeer} {observed : Option HeldPeer}
      (read : ∀ held, observed = some held → held ∈ peer.versions) {env : Environment Device}
      (atomic : env.Atomic) (api : PeerApi) {result : ReconcileResult Journal}
      (returned : r.reconcile env.journaled api name observed peer.agent = .ok result) :
      LiveStep r name own peer { peer with agent := result.state }
  | others {peer : LivePeer} {device : Device} {keyIndex : AList fun _ : NamespacedName => Str}
      (passed : device.passed = peer.agent.dataPlane.now.passed)
      (programmed : ∀ key ∈ own,
        (key ∈ device.programmed ↔ key ∈ peer.agent.dataPlane.now.programmed))
      (cached : keyIndex.lookup name = peer.agent.keyIndex.lookup name) :
      LiveStep r name own peer { peer with agent := ⟨peer.agent.dataPlane.turn device, keyIndex⟩ }

/-- The versions are versions, and the device follows the cached key. -/
structure LivePeer.Kept (name : NamespacedName) (own : Set Str) (peer : LivePeer) : Prop where
  versions : ∀ held ∈ peer.versions, IsVersion name own held
  agent : peer.agent.dataPlane.Kept own (peer.agent.keyIndex.lookup name)

section Runs

variable {r : MeshPeerReconciler} {name : NamespacedName} {own : Set Str} {peer after : LivePeer}

theorem LivePeer.Uncreated.kept (uncreated : peer.Uncreated name own) : peer.Kept name own where
  versions held mem := by
    rw [uncreated.versions] at mem
    cases mem
  agent := by
    refine ⟨⟨fun key mem => ?_, fun key owned mem => ?_⟩, fun moment mem => ?_⟩
    · rw [uncreated.passed] at mem
      exact absurd mem (Finset.notMem_empty key)
    · exact absurd mem (uncreated.programmed key owned)
    · rw [uncreated.past] at mem
      cases mem

theorem LiveStep.kept (step : LiveStep r name own peer after) (kept : peer.Kept name own) :
    after.Kept name own := by
  cases step with
  | write version =>
    refine ⟨fun held mem => ?_, kept.agent⟩
    rcases List.mem_cons.mp mem with rfl | earlier
    · exact version
    · exact kept.versions held earlier
  | reconcile read atomic api returned =>
    have versioned := fun held same => kept.versions held (read held same)
    exact ⟨kept.versions,
      (MeshPeerReconciler.reconcile_kept atomic versioned kept.agent returned).1⟩
  | others passed programmed cached =>
    refine ⟨kept.versions, kept.agent.turn ⟨passed ▸ kept.agent.now.passed, ?_⟩⟩
    intro key owned mem
    rw [cached]
    exact kept.agent.now.programmed key owned ((programmed key owned).mp mem)

theorem LivePeer.kept_of_reached {start : LivePeer} (uncreated : start.Uncreated name own)
    (reached : ReflTransGen (LiveStep r name own) start peer) : peer.Kept name own := by
  induction reached with
  | refl => exact uncreated.kept
  | tail _ step ih => exact step.kept ih

end Runs

/-- In every run before the deletion of a peer, at every moment at most one of the keys that were
passed for it is programmed.  Right after a call that read the finalizer and returned no error, it
is the key that the call read. -/
theorem at_most_one_tunnel (r : MeshPeerReconciler) (name : NamespacedName) (own : Set Str)
    {start peer : LivePeer} (uncreated : start.Uncreated name own)
    (reached : ReflTransGen (LiveStep r name own) start peer) :
    (∀ moment ∈ peer.agent.dataPlane.moments, (moment.passed ∩ moment.programmed).card ≤ 1) ∧
    ∀ held ∈ peer.versions, meshPeerFinalizer ∈ held.finalizers →
      ∀ env : Environment Device, env.Atomic → ∀ api result,
        r.reconcile env.journaled api name (some held) peer.agent = .ok result →
        result.error = none →
          result.state.dataPlane.now.passed ∩ result.state.dataPlane.now.programmed =
            {held.body.spec.publicKey} := by
  have kept := LivePeer.kept_of_reached uncreated reached
  refine ⟨kept.agent.single, fun held stored finalized env atomic api result returned success => ?_⟩
  have versioned : ∀ other, some held = some other → IsVersion name own other := by
    rintro other ⟨⟩
    exact kept.versions held stored
  exact (MeshPeerReconciler.reconcile_kept atomic versioned kept.agent returned).2 held rfl
    finalized success

/-- A version of the object. -/
def eastVersion (publicKey : Str) : HeldPeer := .create [meshPeerFinalizer] (eastPeer publicKey)

namespace LivePeer

/-- Nothing is programmed. -/
def start : LivePeer := ⟨[], ⟨⟨⟨∅, ∅⟩, []⟩, ∅⟩⟩

/-- A new version of the object. -/
def written (peer : LivePeer) (publicKey : Str) : LivePeer :=
  { peer with versions := eastVersion publicKey :: peer.versions }

/-- A reconcile of one version. -/
def call (peer : LivePeer) (publicKey : Str) : Outcome Empty (ReconcileResult Journal) :=
  agentA.reconcile deviceEnvironment.journaled ⟨none, none⟩ eastName (some (eastVersion publicKey))
    peer.agent

/-- The peer is programmed with its first key, and its spec has the second one. -/
def rotating : LivePeer :=
  let connected := start.written "key-1"
  let result := (connected.call "key-1").getD ⟨connected.agent, none, none, none⟩
  { connected with agent := result.state }.written "key-2"

end LivePeer

theorem deviceEnvironment_atomic : deviceEnvironment.Atomic where
  toLawful := deviceEnvironment_lawful
  configure_failed key endpoint allowedIPs before after error configured := by
    cases (Prod.mk.inj configured).2

theorem isVersion_eastVersion (publicKey : Str) :
    IsVersion eastName Set.univ (eastVersion publicKey) :=
  ⟨rfl, rfl, fun _ => Set.mem_univ publicKey⟩

theorem rotated_key_alone :
    ∃ result, LivePeer.rotating.call (str "key-2") = .ok result ∧ result.error = none ∧
      str "key-1" ∈ result.state.dataPlane.now.passed ∧
      result.state.dataPlane.now.passed ∩ result.state.dataPlane.now.programmed =
        {str "key-2"} := by
  have uncreated : LivePeer.start.Uncreated eastName Set.univ :=
    ⟨rfl, rfl, fun key _ => Finset.notMem_empty key, rfl, rfl⟩
  have first_ok : ((LivePeer.start.written (str "key-1")).call (str "key-1")).isOk = true := by
    decide +kernel
  have second_ok : (LivePeer.rotating.call (str "key-2")).isOk = true := by decide +kernel
  obtain ⟨first, first_eq⟩ := Outcome.isOk_iff.mp first_ok
  obtain ⟨second, second_eq⟩ := Outcome.isOk_iff.mp second_ok
  have fine : ((LivePeer.rotating.call (str "key-2")).getD ⟨LivePeer.start.agent, none, none,
      some []⟩).error = none := by decide +kernel
  have passed : str "key-1" ∈ ((LivePeer.rotating.call (str "key-2")).getD
      ⟨LivePeer.start.agent, none, none, none⟩).state.dataPlane.now.passed := by decide +kernel
  rw [second_eq] at fine passed
  have reached : ReflTransGen (LiveStep agentA eastName Set.univ) LivePeer.start
      LivePeer.rotating := by
    rw [LivePeer.rotating, first_eq]
    exact ((ReflTransGen.single (.write (isVersion_eastVersion _))).tail
      (.reconcile (by simp) deviceEnvironment_atomic _ first_eq)).tail
      (.write (isVersion_eastVersion _))
  refine ⟨second, second_eq, fine, passed, ?_⟩
  exact (at_most_one_tunnel agentA eastName Set.univ uncreated reached).2
    (eastVersion (str "key-2")) List.mem_cons_self List.mem_cons_self deviceEnvironment
    deviceEnvironment_atomic _ _ second_eq fine

end DatawerxMesh.Controllers
