import DatawerxMesh.Controllers.MeshNetworkPolicy
import DatawerxMesh.Meshfw.FailClosed

/-!
# From policies to packets

The policy reconciler on top of the firewall manager: what a pass lists in the API server is what
the hook chains enforce afterwards, whichever commands of it and of earlier passes fail.
-/

namespace DatawerxMesh.Controllers

open Go Program World Netfilter Meshfw

/-- The reconciler's world: an API server with the given objects that may fail, and a data plane
that runs the commands of `SyncFirewall`, each of which may fail. -/
def firewallWorld (wgIface : Str) (items : List MeshNetworkPolicy) (peers : List MeshPeer) :
    World PolicyCall PolicyCall.Answer (Table × Ruleset) where
  respond
    | .listPolicies, before, answer, after =>
      after = before ∧ (answer = .ok items ∨ ∃ error, answer = .error error)
    | .listPeers, before, answer, after =>
      after = before ∧ (answer = .ok peers ∨ ∃ error, answer = .error error)
    | .syncFirewall rs, before, answer, after => ∃ ended : Table × Ruleset,
      (kernel filter4 Ruleset).Returns (syncFirewall wgIface rs).run before answer ended ∧
        after = (ended.1, if ended.1.rules fwChain = rs.args then rs else ended.2)
    | .patchStatus _, before, _, after => after = before
  interfere _ _ := False

/-- A pass of the reconciler, with what it can list. -/
def PolicyPass (wgIface : Str) (before after : Table × Ruleset) : Prop :=
  ∃ items peers result,
    (firewallWorld wgIface items peers).Returns reconcilePolicies before result after

variable {wgIface : Str} {items : List MeshNetworkPolicy} {peers : List MeshPeer}
  {before after : Table × Ruleset}

theorem stable_firewallWorld {holds : Table × Ruleset → Prop} :
    (firewallWorld wgIface items peers).Stable holds :=
  fun _ _ _ step => step.elim

theorem ensures_patchAll_firewall {always : Table × Ruleset → Prop} (now : always before)
    (phase : MeshNetworkPolicyPhase) (message : Str) (policies : List MeshNetworkPolicy) :
    (firewallWorld wgIface items peers).Ensures always (fun _ after => after = before)
      (patchAll phase message policies) before := by
  induction policies with
  | nil => exact ⟨now, rfl⟩
  | cons p rest ih =>
    rw [patchAll]
    split
    case isTrue => exact ih
    case isFalse =>
      have holds : ∀ seen, seen = before → always seen := fun seen same => same ▸ now
      refine Ensures.of_call stable_firewallWorld holds ?_ rfl
      rintro seen answer after rfl rfl
      exact ih

/-- The commands do not touch the record of the ruleset. -/
theorem record_of_returns {α : Type} {script : Script Command Command.Answer α} {value : α}
    (returns : (kernel filter4 Ruleset).Returns script before value after) :
    after.2 = before.2 := by
  induction returns with
  | done value state => rfl
  | @call _ _ _ before asked answered _ _ drift answers _ ih =>
    have untouched : (kernel filter4 Ruleset).Stable (·.2 = before.2) :=
      fun _ _ _ step => step.elim
    rw [ih, ← untouched.drift rfl drift]
    obtain ⟨error, -, rfl⟩ | ⟨value, table, -, -, rfl⟩ := answers
    · rfl
    · rfl

/-- The state between passes: the hook chains fail closed, with the ruleset installed last. -/
def Enforcing (wgIface : Str) (state : Table × Ruleset) : Prop :=
  FailsClosed wgIface (· = state.2.args) state.1

theorem ensures_pass (enforcing : Enforcing wgIface before) :
    (firewallWorld wgIface items peers).Ensures (Enforcing wgIface)
      (fun result after => after.2 ∈ [before.2, policyRuleset items peers] ∧ (result = .ok () →
        after.1.rules fwChain = (policyRuleset items peers).args ∧
          ∀ hook ∈ hookChains, Unguarded wgIface after.1 hook)) reconcilePolicies before := by
  have holds : ∀ seen, seen = before → Enforcing wgIface seen := fun seen same => same ▸ enforcing
  refine Ensures.of_call stable_firewallWorld holds ?_ rfl
  rintro seen answer after rfl ⟨rfl, rfl | ⟨error, rfl⟩⟩
  case inr => exact ⟨enforcing, by simp⟩
  refine Ensures.of_call stable_firewallWorld holds ?_ rfl
  rintro seen answer after rfl ⟨rfl, rfl | ⟨error, rfl⟩⟩
  case inr => exact ⟨enforcing, by simp⟩
  refine Ensures.of_call stable_firewallWorld holds ?_ rfl
  rintro seen answer after rfl ⟨ended, returns, rfl⟩
  -- The call of the data plane is a job of the manager, with the guarantee of such jobs.
  let job : SyncJob := ⟨toPolicies items, clusterCIDRs peers⟩
  obtain ⟨rebuilding, returned⟩ :=
    (ensures_syncFirewall job.ruleset_own enforcing).with_always.returns returns
  have settled : Enforcing wgIface (job.settle answer ended) :=
    SyncJob.failsClosed_settle rebuilding
  have recorded : (job.settle answer ended).2 ∈ [seen.2, policyRuleset items peers] := by
    rw [SyncJob.settle]
    split
    · exact List.mem_of_mem_tail (List.mem_singleton_self _)
    · exact List.mem_cons.mpr (.inl (record_of_returns returns))
  cases answer with
  | error error =>
    refine Ensures.bind ((ensures_patchAll_firewall settled _ _ items).mono ?_)
    rintro _ _ rfl
    exact ⟨settled, recorded, by simp⟩
  | ok _ =>
    refine Ensures.bind ((ensures_patchAll_firewall settled _ _ items).mono ?_)
    rintro _ _ rfl
    exact ⟨settled, recorded, fun _ => returned⟩

theorem enforcing_of_passes {table : Table} (prepared : Prepared wgIface table)
    (passes : Relation.ReflTransGen (PolicyPass wgIface) (table, ⟨[], []⟩) before) :
    Enforcing wgIface before := by
  induction passes with
  | refl => exact prepared.failsClosed
  | tail _ pass ih =>
    obtain ⟨items, peers, result, returns⟩ := pass
    exact ((ensures_pass ih).with_always.returns returns).1

/-- After any passes from a fresh table, a pass that returns no error leaves hook chains that pass
the new packets which the listed policies allow.  Whatever it returns, a hook chain drops all
traffic from the mesh, or passes what the ruleset of this pass or the one before permits. -/
theorem policies_enforced {table : Table} {result : Except Str Unit}
    (prepared : Prepared wgIface table)
    (passes : Relation.ReflTransGen (PolicyPass wgIface) (table, ⟨[], []⟩) before)
    (returns : (firewallWorld wgIface items peers).Returns reconcilePolicies before result after) :
    (result = .ok () → (∀ p ∈ toPolicies items, ∀ ing ∈ p.ingress, ∀ pt ∈ ing.ports,
        KnownProtocol pt.protocol) → ∀ hook ∈ hookChains, ∀ packet : Packet (BitVec 32),
      packet.state ≠ .established → packet.state ≠ .related →
        (Passes wgIface after.1 hook packet ↔
          Allowed (toPolicies items) (clusterCIDRs peers) packet)) ∧
    ∀ hook ∈ hookChains, (∀ packet, ¬ Passes wgIface after.1 hook packet) ∨
      ∃ rs ∈ [before.2, policyRuleset items peers],
        ∀ packet, Passes wgIface after.1 hook packet ↔ rs.permits packet = true := by
  obtain ⟨enforcing, recorded, succeeds⟩ :=
    (ensures_pass (enforcing_of_passes prepared passes)).with_always.returns returns
  constructor
  · intro succeeded known hook mem packet not_established not_related
    obtain ⟨complete, unguarded⟩ := succeeds succeeded
    rw [passes_of_unguarded (unguarded hook mem) complete]
    exact buildFirewall_permits_iff known not_established not_related
  · intro hook mem
    rcases enforcing.hooks hook mem with guarded | ⟨unguarded, installed⟩
    · exact .inl (not_passes_of_guarded enforcing.toInfra guarded)
    · exact .inr ⟨after.2, recorded, passes_of_unguarded unguarded installed⟩

/-- Only one range may query the database. -/
def databaseObject : MeshNetworkPolicy where
  name := "database"
  generation := 1
  spec := ⟨["10.96.5.0/24"], [⟨[⟨[], ["10.40.0.0/16"]⟩], [⟨"TCP", 5432⟩]⟩]⟩
  status := ⟨.unset, [], 0⟩

theorem policies_enforced_database : ∃ after : Table × Ruleset, ∀ hook ∈ hookChains,
    Passes "dwx-mesh0" after.1 hook (databaseQuery 0x0A280102) ↔
      Allowed (toPolicies [databaseObject]) (clusterCIDRs []) (databaseQuery 0x0A280102) := by
  have returned : ((syncFirewall "dwx-mesh0" (policyRuleset [databaseObject] [])).run.exec
      (obey filter4) (preparedTable, Ruleset.mk [] [])).1 = .ok () := by
    decide +kernel
  have synced := World.returns_exec (respond_obey filter4)
    (syncFirewall "dwx-mesh0" (policyRuleset [databaseObject] [])).run
    (preparedTable, Ruleset.mk [] [])
  rw [returned] at synced
  have returns : (firewallWorld "dwx-mesh0" [databaseObject] []).Returns reconcilePolicies
      (preparedTable, Ruleset.mk [] []) (.ok ()) _ :=
    .call .refl ⟨rfl, .inl rfl⟩ <| .call .refl ⟨rfl, .inl rfl⟩ <|
      .call .refl ⟨_, synced, rfl⟩ <|
        @Returns.call _ _ _ _ _ _ _ _ _ _ _ _ (.ok ()) .refl rfl (.done _ _)
  have prepared : Prepared "dwx-mesh0" preparedTable := by
    constructor <;> decide +kernel
  exact ⟨_, fun hook mem => (policies_enforced prepared .refl returns).1 rfl
    (by simp only [KnownProtocol]; decide) hook mem _ (by decide) (by decide)⟩

end DatawerxMesh.Controllers
