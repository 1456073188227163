import DatawerxMesh.Meshfw.HookChains

/-!
# The firewall fails closed

In every state of a sync, whichever commands fail, a hook chain is guarded or the firewall chain
holds a complete ruleset.
-/

namespace DatawerxMesh.Meshfw

open Go Program Netfilter List World

variable {wgIface : Str}

section Procedures

variable {ρ : Type} {always : Table × ρ → Prop} {post : Except Str Unit → Table × ρ → Prop}
  {state : Table × ρ} {chain : Str}

theorem ensures_query {context : Str} {command : Command} {next : command.Value → Procedure}
    {value : command.Value} (answered : command.effect filter4 state.1 = some (value, state.1))
    (now : always state) (failed : ∀ error, post (.error error) state)
    (later : (kernel filter4 ρ).Ensures always post (next value).run state) :
    (kernel filter4 ρ).Ensures always post (attempt context command >>= next).run state := by
  refine Ensures.attempt (ensures_attempt now failed ?_)
  intro value table effect_eq
  obtain ⟨rfl, rfl⟩ := Prod.mk.inj (Option.some.inj (answered.symm.trans effect_eq))
  exact ⟨now, later⟩

theorem ensures_ensureChain (present : chain ∈ state.1.chains) (now : always state)
    (either : ∀ result, post result state) :
    (kernel filter4 ρ).Ensures always post (ensureChain chain).run state := by
  refine ensures_query rfl now (fun error => either _) ?_
  rw [decide_eq_true present]
  exact ⟨now, either _⟩

theorem ensures_ensureGuardChain (infra : Infra state.1) (now : always state)
    (either : ∀ result, post result state) :
    (kernel filter4 ρ).Ensures always post ensureGuardChain.run state := by
  have present : fwChainGuard ∈ state.1.chains := infra.chains _ (by simp)
  refine Ensures.attempt (ensures_ensureChain present now fun result => ?_)
  cases result with
  | error error => exact either _
  | ok _ =>
    refine ensures_query rfl now (fun error => either _) ?_
    rw [Table.hasRule, infra.guard, decide_eq_true present]
    exact ⟨now, either _⟩

theorem ensures_ensureInfra (infra : Infra state.1)
    (hooked : ∀ hook ∈ hookChains, hookSpec wgIface fwChain ∈ state.1.rules hook)
    (now : always state) (either : ∀ result, post result state) :
    (kernel filter4 ρ).Ensures always post (ensureInfra wgIface).run state := by
  have present : fwChain ∈ state.1.chains := infra.chains _ (by simp)
  refine Ensures.attempt (ensures_ensureChain present now fun result => ?_)
  cases result with
  | error error => exact either _
  | ok _ =>
    refine Ensures.attempt (ensures_ensureGuardChain infra now fun result => ?_)
    cases result with
    | error error => exact either _
    | ok _ =>
      -- Every hook finds its jump, so the loop stays in the state it started in.
      refine (Ensures.forM_each (· = state) (fun _ _ => True)
        (fun _ after => after = state) (fun _ same => same ▸ now) ?_ rfl).mono ?_
      · rintro hook mem seen rfl
        refine ensures_query rfl now (fun error => rfl) ?_
        rw [Table.hasRule, decide_eq_true (hooked hook mem),
          decide_eq_true (infra.chains hook (by simp [mem]))]
        exact ⟨now, rfl, trivial, fun _ _ => id⟩
      · rintro (error | _) seen unchanged
        · exact unchanged ▸ either _
        · exact unchanged.1 ▸ either _

end Procedures

section Sync

variable {installed rs : Ruleset} {table : Table}

/-- In all states of a sync an unguarded hook chain meets the old or the new ruleset. -/
def Rebuilding (wgIface : Str) (rs : Ruleset) (state : Table × Ruleset) : Prop :=
  FailsClosed wgIface (fun contents => contents = state.2.args ∨ contents = rs.args) state.1

theorem FailsClosed.rebuilding_old (closed : FailsClosed wgIface (· = installed.args) table) :
    Rebuilding wgIface rs (table, installed) :=
  closed.mono Or.inl

theorem FailsClosed.rebuilding_new (closed : FailsClosed wgIface (· = rs.args) table) :
    Rebuilding wgIface rs (table, installed) :=
  closed.mono Or.inr

theorem FailsClosed.rebuilding_guarded (closed : FailsClosed wgIface (fun _ => False) table) :
    Rebuilding wgIface rs (table, installed) :=
  closed.mono False.elim

/-- The installed ruleset stays in force until a hook chain is guarded. -/
theorem ensures_engageGuard (closed : FailsClosed wgIface (· = installed.args) table) :
    (kernel filter4 Ruleset).Ensures (Rebuilding wgIface rs)
      (byResult (fun _ after => after.2 = installed ∧
        FailsClosed wgIface (fun _ => False) after.1) fun _ _ => True)
      (engageGuard wgIface).run (table, installed) := by
  let engaging (seen : Table × Ruleset) : Prop :=
    seen.2 = installed ∧ FailsClosed wgIface (· = installed.args) seen.1
  have keeps : ∀ seen, engaging seen → Rebuilding wgIface rs seen := by
    rintro ⟨seen, _⟩ ⟨rfl, closed⟩
    exact closed.rebuilding_old
  have round : ∀ hook ∈ hookChains, ∀ seen, engaging seen →
      (kernel filter4 Ruleset).Ensures (Rebuilding wgIface rs)
        (byResult (fun _ after => engaging after ∧ Guarded wgIface after.1 hook ∧
          ∀ other ≠ hook, Guarded wgIface seen.1 other → Guarded wgIface after.1 other)
          fun _ _ => True)
        (engageHook wgIface hook).run seen := by
    rintro hook mem ⟨seen, old⟩ ⟨rfl, closed⟩
    have present : hook ∈ seen.chains := closed.chains hook (by simp [mem])
    have now : Rebuilding wgIface rs (seen, old) := closed.rebuilding_old
    refine ensures_query rfl now (fun error => trivial) ?_
    rcases closed.hooks hook mem with hook_guarded | ⟨hook_open, holds⟩
    · -- A guard left over from a failed sync is used again.
      rw [hook_guarded.hasRule present]
      exact ⟨now, ⟨rfl, closed⟩, hook_guarded, fun _ _ => id⟩
    · rw [hook_open.hasRule]
      refine ensures_attempt now (fun error => trivial) fun value after effect_eq => ?_
      have inserted : after = setRules seen hook
          (hookSpec wgIface fwChainGuard :: seen.rules hook) := by
        simpa [Command.effect, Table.insertFirst, present, setRules, eq_comm] using effect_eq
      have shape : ownJumps wgIface (hookSpec wgIface fwChainGuard :: seen.rules hook) =
          [hookSpec wgIface fwChainGuard, hookSpec wgIface fwChain] := by
        rw [ownJumps_cons_guard, hook_open]
      have still_closed := closed.setHook mem (Or.inl shape)
      rw [← inserted] at still_closed
      refine ⟨still_closed.rebuilding_old, ⟨rfl, still_closed⟩, ?_, fun other differs guarded => ?_⟩
      · rw [Guarded, inserted, rules_setRules_self, shape]
      · rw [Guarded, inserted, rules_setRules_of_ne differs]
        exact guarded
  refine (Ensures.forM_each engaging _ _ keeps round ⟨rfl, closed⟩).mono ?_
  rintro (error | _) ⟨seen, _⟩ holds
  · trivial
  · obtain ⟨⟨rfl, closed⟩, guarded⟩ := holds
    exact ⟨rfl, closed.toInfra, fun hook mem => Or.inl (guarded hook mem)⟩

theorem ensures_appendRules (own : ∀ rule ∈ rs.rules, rule.chain = fwChain)
    (closed : FailsClosed wgIface (fun _ => False) table) (empty : table.rules fwChain = []) :
    (kernel filter4 Ruleset).Ensures (Rebuilding wgIface rs)
      (byResult (fun _ after => after.2 = installed ∧
        FailsClosed wgIface (fun _ => False) after.1 ∧ after.1.rules fwChain = rs.args)
        fun _ _ => True)
      (rs.rules.forM appendRule).run (table, installed) := by
  let appended (left : List Rule) (seen : Table × Ruleset) : Prop :=
    seen.2 = installed ∧ FailsClosed wgIface (fun _ => False) seen.1 ∧
      ∃ done, rs.rules = done ++ left ∧ seen.1.rules fwChain = done.map Rule.args
  have keeps : ∀ left seen, appended left seen → Rebuilding wgIface rs seen := by
    rintro left ⟨seen, _⟩ ⟨rfl, closed, -⟩
    exact closed.rebuilding_guarded
  have step : ∀ rule left seen, appended (rule :: left) seen →
      (kernel filter4 Ruleset).Ensures (Rebuilding wgIface rs)
        (byResult (fun _ after => appended left after) fun _ _ => True)
        (appendRule rule).run seen := by
    rintro rule left ⟨seen, old⟩ ⟨rfl, closed, done, rules_eq, holds⟩
    have now : Rebuilding wgIface rs (seen, old) := closed.rebuilding_guarded
    have chain_eq : rule.chain = fwChain := own rule (by simp [rules_eq])
    refine ensures_attempt now (fun error => trivial) fun value after effect_eq => ?_
    have grown : after = setRules seen fwChain (seen.rules fwChain ++ [rule.args]) := by
      simp only [Command.effect, Table.append, chain_eq, Option.map_eq_some_iff] at effect_eq
      obtain ⟨found, found_eq, -, rfl⟩ := effect_eq
      split at found_eq
      · exact (Option.some.inj found_eq).symm
      · cases found_eq
    have still_closed := closed.setFwChain (seen.rules fwChain ++ [rule.args])
    rw [← grown] at still_closed
    refine ⟨still_closed.rebuilding_guarded, rfl, still_closed, done ++ [rule], ?_, ?_⟩
    · rw [rules_eq, append_assoc, singleton_append]
    · rw [grown, rules_setRules_self, holds, map_append, map_singleton]
  have start : appended rs.rules (table, installed) := ⟨rfl, closed, [], rfl, empty⟩
  refine (Ensures.forM appended keeps step start).mono ?_
  rintro (error | _) ⟨seen, _⟩ holds
  · trivial
  · obtain ⟨rfl, closed, done, rules_eq, holds⟩ := holds
    rw [append_nil] at rules_eq
    exact ⟨rfl, closed, by rw [holds, ← rules_eq, Ruleset.args]⟩

/-- Every hook chain that becomes unguarded meets the new ruleset. -/
theorem ensures_disengageGuard (closed : FailsClosed wgIface (fun _ => False) table)
    (complete : table.rules fwChain = rs.args) :
    (kernel filter4 Ruleset).Ensures (Rebuilding wgIface rs)
      (byResult (fun _ after => after.1.rules fwChain = rs.args ∧
        ∀ hook ∈ hookChains, Unguarded wgIface after.1 hook) fun _ _ => True)
      (disengageGuard wgIface).run (table, installed) := by
  let lifting (seen : Table × Ruleset) : Prop :=
    FailsClosed wgIface (· = rs.args) seen.1 ∧ seen.1.rules fwChain = rs.args
  have keeps : ∀ seen, lifting seen → Rebuilding wgIface rs seen := by
    rintro ⟨seen, _⟩ ⟨closed, -⟩
    exact closed.rebuilding_new
  have round : ∀ hook ∈ hookChains, ∀ seen, lifting seen →
      (kernel filter4 Ruleset).Ensures (Rebuilding wgIface rs)
        (byResult (fun _ after => lifting after ∧ Unguarded wgIface after.1 hook ∧
          ∀ other ≠ hook, Unguarded wgIface seen.1 other → Unguarded wgIface after.1 other)
          fun _ _ => True)
        (disengageHook wgIface hook).run seen := by
    rintro hook mem ⟨seen, old⟩ ⟨closed, complete⟩
    have present : hook ∈ seen.chains := closed.chains hook (by simp [mem])
    have now : Rebuilding wgIface rs (seen, old) := closed.rebuilding_new
    refine ensures_query rfl now (fun error => trivial) ?_
    rcases closed.hooks hook mem with hook_guarded | ⟨hook_open, -⟩
    · have found := hook_guarded.hasRule present
      rw [found]
      refine ensures_attempt now (fun error => trivial) fun value after effect_eq => ?_
      have erased : after = setRules seen hook
          ((seen.rules hook).erase (hookSpec wgIface fwChainGuard)) := by
        simpa [Command.effect, Table.deleteRule, found, setRules, eq_comm] using effect_eq
      have shape : ownJumps wgIface ((seen.rules hook).erase (hookSpec wgIface fwChainGuard)) =
          [hookSpec wgIface fwChain] := by
        rw [ownJumps_erase_guard, hook_guarded, erase_cons_head]
      have still_closed := closed.setHook mem (Or.inr ⟨shape, complete⟩)
      have still_complete : after.rules fwChain = rs.args := by
        rw [erased, rules_setRules_of_ne (Ne.symm (hook_ne_fwChain mem)), complete]
      rw [← erased] at still_closed
      refine ⟨still_closed.rebuilding_new, ⟨still_closed, still_complete⟩, ?_,
        fun other differs unguarded => ?_⟩
      · rw [Unguarded, erased, rules_setRules_self, shape]
      · rw [Unguarded, erased, rules_setRules_of_ne differs]
        exact unguarded
    · rw [hook_open.hasRule]
      exact ⟨now, ⟨closed, complete⟩, hook_open, fun _ _ => id⟩
  refine (Ensures.forM_each lifting _ _ keeps round ⟨closed.mono False.elim, complete⟩).mono ?_
  rintro (error | _) ⟨seen, _⟩ holds
  · trivial
  · exact ⟨holds.1.2, holds.2⟩

/-- Every hook chain stays closed or in front of a complete ruleset, and success means that the new
one is in force everywhere. -/
theorem ensures_syncFirewall (own : ∀ rule ∈ rs.rules, rule.chain = fwChain)
    (closed : FailsClosed wgIface (· = installed.args) table) :
    (kernel filter4 Ruleset).Ensures (Rebuilding wgIface rs)
      (byResult (fun _ after => after.1.rules fwChain = rs.args ∧
        ∀ hook ∈ hookChains, Unguarded wgIface after.1 hook) fun _ _ => True)
      (syncFirewall wgIface rs).run (table, installed) := by
  have now : Rebuilding wgIface rs (table, installed) := closed.rebuilding_old
  have hooked : ∀ hook ∈ hookChains, hookSpec wgIface fwChain ∈ table.rules hook := by
    intro hook mem
    rw [← mem_ownJumps_fw]
    rcases closed.hooks hook mem with guarded | ⟨unguarded, -⟩
    · rw [guarded]
      simp
    · rw [unguarded]
      simp
  refine Ensures.attempt (ensures_ensureInfra closed.toInfra hooked now ?_)
  rintro (error | _)
  · trivial
  refine Ensures.attempt ((ensures_engageGuard closed).mono ?_)
  rintro (error | _) ⟨seen, old⟩ engaged
  · trivial
  obtain ⟨rfl, guarded⟩ := engaged
  have guarded_now : Rebuilding wgIface rs (seen, old) := guarded.rebuilding_guarded
  refine Ensures.attempt (ensures_attempt guarded_now (fun error => trivial) ?_)
  intro value flushed effect_eq
  have flushed_eq : flushed = setRules seen fwChain [] := by
    obtain ⟨-, rfl⟩ := Prod.mk.inj (Option.some.inj effect_eq)
    rw [Table.clearChain, if_pos (guarded.chains fwChain (by simp)), setRules]
  have flushed_closed := guarded.setFwChain []
  rw [← flushed_eq] at flushed_closed
  refine ⟨flushed_closed.rebuilding_guarded, ?_⟩
  refine Ensures.attempt ((ensures_appendRules own flushed_closed (by simp [flushed_eq])).mono ?_)
  rintro (error | _) ⟨filled, new⟩ appended
  · trivial
  obtain ⟨rfl, filled_closed, complete⟩ := appended
  exact Ensures.adapt (ensures_disengageGuard filled_closed complete)

end Sync

/-- What one call of `SyncFirewall` is for. -/
structure SyncJob where
  policies : List Policy
  clusterCIDRs : Str → List Str

/-- The rules of a job. -/
def SyncJob.ruleset (job : SyncJob) : Ruleset := buildFirewall job.policies job.clusterCIDRs

/-- The commands of a job. -/
def SyncJob.program (wgIface : Str) (job : SyncJob) :
    Script Command Command.Answer (Except Str Unit) :=
  (syncFirewall wgIface job.ruleset).run

/-- A call that ends with all of its rules in the chain has installed its ruleset. -/
def SyncJob.settle (job : SyncJob) (_ : Except Str Unit) (state : Table × Ruleset) :
    Table × Ruleset :=
  (state.1, if state.1.rules fwChain = job.ruleset.args then job.ruleset else state.2)

/-- Steps of a manager, with the ruleset that was completely installed last. -/
abbrev ManagerStep (wgIface : Str) :=
  Worker.Step (kernel filter4 Ruleset) (SyncJob.program wgIface) SyncJob.settle

theorem SyncJob.ruleset_own (job : SyncJob) : ∀ rule ∈ job.ruleset.rules, rule.chain = fwChain := by
  intro rule mem
  simp only [SyncJob.ruleset, buildFirewall, FwBuilder.ruleset, mem_cons, mem_append,
    mem_map] at mem
  obtain rfl | ⟨key, -, rfl⟩ | ⟨dst, -, rfl⟩ := mem
  all_goals rfl

/-- The guarantee of a call. -/
abbrev SyncJob.returned (wgIface : Str) (job : SyncJob) :
    Except Str Unit → Table × Ruleset → Prop :=
  byResult (fun _ after => after.1.rules fwChain = job.ruleset.args ∧
    ∀ hook ∈ hookChains, Unguarded wgIface after.1 hook) fun _ _ => True

theorem SyncJob.failsClosed_settle {job : SyncJob} {result : Except Str Unit}
    {state : Table × Ruleset} (rebuilding : Rebuilding wgIface job.ruleset state) :
    FailsClosed wgIface (· = (job.settle result state).2.args) (job.settle result state).1 := by
  refine FailsClosed.mono rebuilding fun either => ?_
  rw [SyncJob.settle]
  split
  case isTrue complete => exact complete
  case isFalse incomplete => exact either.resolve_right incomplete

theorem managerStep_guaranteed {table : Table} (prepared : Prepared wgIface table)
    {worker : Worker SyncJob Command Command.Answer (Except Str Unit) (Table × Ruleset)}
    (reached : Relation.ReflTransGen (ManagerStep wgIface) ⟨(table, ⟨[], []⟩), none⟩ worker) :
    worker.Guaranteed (kernel filter4 Ruleset)
      (fun state => FailsClosed wgIface (· = state.2.args) state.1)
      (fun job => Rebuilding wgIface job.ruleset) (SyncJob.returned wgIface) := by
  refine Worker.guaranteed_of_reachable ?_ ?_ ?_ ?_ ?_ reached
  · exact fun _ _ _ step => step.elim
  · exact fun _ _ _ _ _ step => step.elim
  · exact fun job state closed => ensures_syncFirewall job.ruleset_own closed
  · exact fun job value state rebuilding _ => SyncJob.failsClosed_settle rebuilding
  · exact prepared.failsClosed

/-- At every moment a hook chain drops all traffic from the mesh, or passes what the ruleset that
was completely installed last permits, or what the ruleset that the current call has completed
permits.  A call that returns without an error leaves its own rules in force. -/
theorem firewall_fails_closed {wgIface : Str} {table : Table} (prepared : Prepared wgIface table)
    {state : Table × Ruleset}
    {running : Option (SyncJob × Script Command Command.Answer (Except Str Unit))}
    (reached : Relation.ReflTransGen (ManagerStep wgIface) ⟨(table, ⟨[], []⟩), none⟩
      ⟨state, running⟩) :
    (∀ hook ∈ hookChains,
      (∀ packet, ¬ Passes wgIface state.1 hook packet) ∨
      (∀ packet, Passes wgIface state.1 hook packet ↔ state.2.permits packet = true) ∨
      ∃ job rest, running = some (job, rest) ∧ state.1.rules fwChain = job.ruleset.args ∧
        ∀ packet, Passes wgIface state.1 hook packet ↔ job.ruleset.permits packet = true) ∧
    ∀ job, running = some (job, .done (.ok ())) →
      state.1.rules fwChain = job.ruleset.args ∧
      ∀ hook ∈ hookChains, hookSpec wgIface fwChainGuard ∉ state.1.rules hook ∧
        (state.1.rules hook).count (hookSpec wgIface fwChain) = 1 := by
  have guaranteed := managerStep_guaranteed prepared reached
  refine ⟨fun hook mem => ?_, fun job returned => ?_⟩
  · match running, guaranteed with
    | none, closed =>
      rcases closed.hooks hook mem with guarded | ⟨unguarded, old⟩
      · exact Or.inl fun packet => not_passes_of_guarded closed.toInfra guarded packet
      · exact Or.inr (Or.inl fun packet => passes_of_unguarded unguarded old packet)
    | some (job, rest), ensures =>
      have rebuilding : Rebuilding wgIface job.ruleset state := Ensures.now ensures
      rcases rebuilding.hooks hook mem with guarded | ⟨unguarded, old | new⟩
      · exact Or.inl fun packet => not_passes_of_guarded rebuilding.toInfra guarded packet
      · exact Or.inr (Or.inl fun packet => passes_of_unguarded unguarded old packet)
      · exact Or.inr (Or.inr ⟨job, rest, rfl, new,
          fun packet => passes_of_unguarded unguarded new packet⟩)
  · subst returned
    obtain ⟨-, complete, unguarded⟩ := guaranteed
    exact ⟨complete, fun hook mem => (unguarded hook mem).counts⟩

/-- A table as `NewManager` leaves it, with nothing else in it. -/
def preparedTable : Table where
  chains := hookChains ++ [fwChain, fwChainGuard]
  rules chain :=
    if chain = fwChainGuard then [guardDrop]
    else if chain ∈ hookChains then [hookSpec "dwx-mesh0" fwChain]
    else []

/-- A job of one policy. -/
def databaseSync : SyncJob := ⟨[databasePolicy], databaseClusters⟩

/-- The table after that job. -/
def syncedState : Table × Ruleset :=
  ((databaseSync.program "dwx-mesh0").exec (obey filter4) (preparedTable, Ruleset.mk [] [])).2

theorem firewall_fails_closed_first_sync :
    syncedState.1.rules fwChain = databaseSync.ruleset.args ∧
    ∀ hook ∈ hookChains, hookSpec "dwx-mesh0" fwChainGuard ∉ syncedState.1.rules hook ∧
      (syncedState.1.rules hook).count (hookSpec "dwx-mesh0" fwChain) = 1 := by
  have prepared : Prepared "dwx-mesh0" preparedTable := by
    constructor <;> decide +kernel
  have returned : ((databaseSync.program "dwx-mesh0").exec (obey filter4)
      (preparedTable, Ruleset.mk [] [])).1 = .ok () := by
    decide +kernel
  have reached : Relation.ReflTransGen (ManagerStep "dwx-mesh0")
      ⟨(preparedTable, Ruleset.mk [] []), none⟩
      ⟨syncedState, some (databaseSync, .done (.ok ()))⟩ := by
    refine .head (.start _ databaseSync) ?_
    rw [← returned]
    exact Worker.reaches_exec (respond_obey filter4) databaseSync _ _
  exact (firewall_fails_closed prepared reached).2 databaseSync rfl

end DatawerxMesh.Meshfw
