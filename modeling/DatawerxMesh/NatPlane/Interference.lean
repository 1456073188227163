import DatawerxMesh.NatPlane.FullState
import DatawerxMesh.NatPlane.HookOrder

/-!
# The four syncs of a manager

`SyncClusterSetNAT` of `pkg/nat/manager.go` between the other syncs: a chain holds what its own sync
was last called with.
-/

namespace DatawerxMesh.NatPlane

open Go Program Netfilter Scheduling Rebuilding List ClusterSet

variable {chain : Str} {sync : Sync} {go : Runtime Unit} {six : Bool} {table after : Table}

/-- Run a procedure on a table that refuses what it has to and fails at nothing else. -/
def ClusterSet.Procedure.on (program : Procedure) (table : Table) : Except Str Table :=
  match program.run.exec ChainCommand.obey table with
  | (.ok (), after) => .ok after
  | (.error error, _) => .error error

/-- Run a procedure on the IPv4 table and one on the IPv6 table, if there is one. -/
def Manager.runBoth (m : Manager) (program4 program6 : Procedure) :
    Except Str Manager := do
  let ipt ← program4.on m.ipt
  let ipt6 ← m.ipt6.mapM program6.on
  return { ipt, ipt6 }

/-- `NewManager`, with the tables that its handles find. -/
def Manager.newManager (m : Manager) : Except Str Manager :=
  m.runBoth ClusterSet.ensureInfra ClusterSet.ensureInfra

/-- The ClusterSetIP sync of both tables. -/
def Manager.syncClusterSetNAT (go : Runtime Unit) (m : Manager) (services : List ServiceDNAT) :
    Except Str Manager :=
  m.runBoth (ClusterSet.syncClusterSet go (servicesOf false services))
    (ClusterSet.syncClusterSet go (servicesOf true services))

/-- The sync of the ClusterSetIP chains, or one of fixed chains with its own arguments from `args`.
-/
inductive Call where
  | clusterSet (services : List ServiceDNAT)
  | fixed (sync : Sync) (args : SyncArgs)

/-- One call succeeds. -/
def Manager.Performs (go : Runtime Unit) (m : Manager) : Call → Manager → Prop
  | .clusterSet services, after => m.syncClusterSetNAT go services = .ok after
  | .fixed sync args, after => m.sync args sync = .ok after

/-- Calls, one after the other. -/
inductive Manager.Runs (go : Runtime Unit) (start : Manager) : List Call → Manager → Prop where
  | start : Runs go start [] start
  | call {calls : List Call} {call : Call} {m after : Manager} :
      Runs go start calls m → m.Performs go call after → Runs go start (calls ++ [call]) after

namespace Call

/-- The chains that a sync rebuilds, by name. -/
def owns : Call → Str → Bool
  | clusterSet _, chain => ClusterSet.isOwn chain
  | fixed sync _, chain => chain ∈ sync.chains

/-- The chain to which a sync needs a jump from a built-in chain. -/
def target (builtin : Str) : Call → Option Str
  | clusterSet _ => if builtin ∈ hookChains then some rootChain else none
  | fixed sync _ => sync.target builtin

/-- What the planner of a sync computes for a table. -/
def rules (go : Runtime Unit) (six : Bool) : Call → List Rule
  | clusterSet services => (ClusterSet.buildRuleset go (servicesOf six services)).rules
  | fixed sync args => (args.ofFamily six).rules sync

/-- The chains that a sync leaves in a table. -/
def chains (go : Runtime Unit) (six : Bool) : Call → List Str
  | clusterSet services =>
    rootChain :: (ClusterSet.buildRuleset go (servicesOf six services)).chains
  | fixed sync _ => sync.chains

end Call

/-- The chains of the manager. -/
def isDWX (chain : Str) : Bool := hasPrefix chain "DWX-"

/-- The planned content of a chain after calls: that of the last call that rebuilds it. -/
def plannedContent (go : Runtime Unit) (six : Bool) (calls : List Call) (chain : Str) :
    List (List Str) :=
  content Call.owns (fun call chain => chainArgs chain (call.rules go six)) (fun _ => []) calls
    chain

/-- The last call that rebuilds a chain leaves it in the table. -/
def PlannedChain (go : Runtime Unit) (six : Bool) (calls : List Call) (chain : Str) : Prop :=
  content Call.owns (fun call chain => chain ∈ call.chains go six) (fun _ => False) calls chain

/-- A nat table without chains of the manager, to which nothing can jump then. -/
structure Unmanaged (table : Table) : Prop where
  nodup : table.chains.Nodup
  builtins : ∀ builtin ∈ [preroutingChain, "OUTPUT", postroutingChain], builtin ∈ table.chains
  missing : ∀ chain ∉ table.chains, table.rules chain = []
  foreign : ∀ chain ∈ table.chains, isDWX chain = false
  targets : ∀ chain, ∀ args ∈ table.rules chain, ∀ target ∈ jumpTarget args, isDWX target = false

/-- A table after calls, compared with the one before the manager. -/
structure Undisturbed (go : Runtime Unit) (six : Bool) (calls : List Call) (base after : Table) :
    Prop where
  /-- The chains of the manager hold what their own syncs were last called with. -/
  contents : ∀ chain, isDWX chain = true → after.rules chain = plannedContent go six calls chain
  /-- The chains of the manager are those that the last calls left; the root chain is there before
  the first call. -/
  chains : ∀ chain, isDWX chain = true → chain ≠ rootChain →
    (chain ∈ after.chains ↔ PlannedChain go six calls chain)
  /-- The other chains are those of the table. -/
  foreign : ∀ chain, isDWX chain = false → (chain ∈ after.chains ↔ chain ∈ base.chains)
  /-- They have their old rules, after jumps to chains of the manager. -/
  kept : ∀ chain, isDWX chain = false → ∃ targets : List Str,
    (∀ target ∈ targets, isDWX target = true) ∧
      after.rules chain = targets.map Table.jumpTo ++ base.rules chain
  /-- Every jump that a performed sync needs is there once. -/
  jumps : ∀ call ∈ calls, ∀ builtin, ∀ target ∈ call.target builtin,
    (after.rules builtin).count (Table.jumpTo target) = 1

theorem isDWX_of_isManaged (managed : ClusterSet.isManaged chain = true) : isDWX chain = true := by
  rcases Bool.or_eq_true_iff.mp managed with svc | sep
  · exact hasPrefix_iff.mpr ((hasPrefix_iff.mp (by decide)).trans (hasPrefix_iff.mp svc))
  · exact hasPrefix_iff.mpr ((hasPrefix_iff.mp (by decide)).trans (hasPrefix_iff.mp sep))

theorem isDWX_of_isOwn (own : ClusterSet.isOwn chain = true) : isDWX chain = true := by
  rcases Bool.or_eq_true_iff.mp own with is_root | managed
  · rw [eq_of_beq is_root]
    decide
  · exact isDWX_of_isManaged managed

theorem Sync.isDWX_of_mem_chains (mem : chain ∈ sync.chains) : isDWX chain = true := by
  revert chain
  cases sync <;> decide

theorem Sync.not_isOwn_of_mem_chains (mem : chain ∈ sync.chains) :
    ClusterSet.isOwn chain = false := by
  revert chain
  cases sync <;> decide

theorem Sync.of_target {builtin target : Str} (found : target ∈ sync.target builtin) :
    (builtin = preroutingChain ∨ builtin = postroutingChain) ∧ target ∈ sync.chains := by
  have only_post : ∀ {chain : Str},
      target ∈ (if builtin = postroutingChain then some chain else none) →
        builtin = postroutingChain ∧ target = chain := fun found =>
    (Option.mem_ite_none_right.mp found).imp_right fun same => (Option.mem_some_iff.mp same).symm
  cases sync with
  | remap =>
    rw [Sync.target] at found
    split at found
    case isTrue is_pre =>
      obtain rfl := Option.mem_some_iff.mp found
      exact ⟨.inl is_pre, mem_cons_self⟩
    case isFalse =>
      obtain ⟨is_post, rfl⟩ := only_post found
      exact ⟨.inr is_post, mem_cons_of_mem _ mem_cons_self⟩
  | noMasq =>
    obtain ⟨is_post, rfl⟩ := only_post found
    exact ⟨.inr is_post, mem_cons_self⟩
  | gateway =>
    obtain ⟨is_post, rfl⟩ := only_post found
    exact ⟨.inr is_post, mem_cons_self⟩

namespace Call

variable {chain : Str}

theorem isDWX_of_owns {call : Call} (own : call.owns chain = true) : isDWX chain = true := by
  cases call with
  | clusterSet services => exact isDWX_of_isOwn own
  | fixed sync args => exact Sync.isDWX_of_mem_chains (of_decide_eq_true own)

theorem not_owns (call : Call) (foreign : isDWX chain = false) : call.owns chain = false := by
  refine Bool.eq_false_iff.mpr fun own => ?_
  rw [isDWX_of_owns own] at foreign
  cases foreign

theorem of_target {call : Call} {builtin target : Str} (found : target ∈ call.target builtin) :
    isDWX builtin = false ∧ isDWX target = true := by
  cases call with
  | clusterSet services =>
    rw [Call.target] at found
    split at found
    case isTrue mem =>
      obtain rfl := Option.some.inj found
      refine ⟨?_, by decide⟩
      revert builtin
      decide
    case isFalse => cases found
  | fixed sync args =>
    obtain ⟨is_builtin, mem⟩ := Sync.of_target found
    refine ⟨?_, Sync.isDWX_of_mem_chains mem⟩
    rcases is_builtin with rfl | rfl <;> decide

theorem target_eq_none (call : Call) (dwx : isDWX chain = true) : call.target chain = none := by
  refine Option.eq_none_iff_forall_not_mem.mpr fun target found => ?_
  rw [(of_target found).1] at dwx
  cases dwx

end Call

open ClusterSet (Isolated)

/-- A call on a table: its own chains are rebuilt, and its jumps registered in the others. -/
structure Call.Rebuilds (go : Runtime Unit) (six : Bool) (call : Call) (before after : Table) :
    Prop where
  isolated : Isolated after
  rules_own : ∀ chain, call.owns chain = true →
    after.rules chain = chainArgs chain (call.rules go six)
  rules_other : ∀ chain, call.owns chain = false →
    after.rules chain = registerJump (before.rules chain) (call.target chain)
  chains_own : ∀ chain, call.owns chain = true → (chain ∈ after.chains ↔ chain ∈ call.chains go six)
  chains_other : ∀ chain, call.owns chain = false → (chain ∈ after.chains ↔ chain ∈ before.chains)

theorem rebuilds_clusterSet {services : List ServiceDNAT} (isolated : Isolated table)
    (done : (ClusterSet.syncClusterSet go (servicesOf six services)).on table = .ok after) :
    (Call.clusterSet services).Rebuilds go six table after := by
  obtain ⟨run, still_isolated⟩ :=
    exec_syncClusterSet isolated go (servicesOf six services)
  rw [Procedure.on, run] at done
  obtain rfl := Except.ok.inj done
  have restored := restored_synced table
    (wellPlanned_rulesetOf (go.sortSlice () lessService (servicesOf six services)))
  refine ⟨still_isolated, restored.rules, fun chain other => ?_, fun chain own => ?_,
    restored.chains⟩
  · rw [Call.target]
    split
    case isTrue hook => exact restored.hooks chain hook
    case isFalse not_hook => exact restored.others chain other not_hook
  · rcases Bool.or_eq_true_iff.mp own with is_root | managed
    · rw [eq_of_beq is_root]
      exact iff_of_true restored.root mem_cons_self
    · refine (restored.managed chain managed).trans (mem_cons.trans (or_iff_right ?_)).symm
      rintro rfl
      cases managed

theorem nodup_withChain (nodup : table.chains.Nodup) (chain : Str) :
    (withChain table chain).chains.Nodup := by
  rw [withChain]
  split
  · exact nodup
  case isFalse absent =>
    exact nodup.append (nodup_singleton _) (disjoint_singleton.mpr absent)

theorem nodup_clearChain (nodup : table.chains.Nodup) (chain : Str) :
    (table.clearChain chain).chains.Nodup := by
  rw [Table.clearChain]
  split
  · exact nodup
  case isFalse absent =>
    exact nodup.append (nodup_singleton _) (disjoint_singleton.mpr absent)

theorem nodup_prepared (nodup : table.chains.Nodup) (sync : Sync) :
    (prepared table sync).chains.Nodup := by
  cases sync with
  | remap =>
    have first : (withHook (withChain table remapPreChain) preroutingChain
        remapPreChain).chains.Nodup := nodup_withChain nodup remapPreChain
    exact nodup_clearChain (nodup_clearChain (nodup_withChain first remapPostChain) _) _
  | noMasq => exact nodup_clearChain (nodup_withChain nodup _) _
  | gateway => exact nodup_clearChain (nodup_withChain nodup _) _

theorem target_of_mem_rules {args : SyncArgs} {rule : Rule} (mem : rule ∈ args.rules sync) :
    ∃ target ∈ extensionTargets, jumpTarget rule.args = some target := by
  cases sync with
  | remap =>
    rcases mem_append.mp mem with in_pre | in_post
    · obtain ⟨entry, -, rfl⟩ := mem_map.mp in_pre
      exact ⟨"NETMAP", by decide, jumpTarget_append [_, _]
        (jumpTarget_option entry.real (by decide) (by decide))⟩
    · obtain ⟨entry, -, rfl⟩ := mem_map.mp in_post
      exact ⟨"NETMAP", by decide, jumpTarget_append [_, _]
        (jumpTarget_option entry.virtual (by decide) (by decide))⟩
  | noMasq =>
    obtain ⟨source, -, destination, -, -, -, -, rfl⟩ := mem_pairRules.mp mem
    exact ⟨"ACCEPT", by decide, jumpTarget_last [_, _, _, _] _⟩
  | gateway =>
    obtain ⟨source, -, destination, -, -, -, -, rfl⟩ :=
      mem_pairRules.mp (mem_buildGatewayMasqRules.mp mem)
    exact ⟨"MASQUERADE", by decide, jumpTarget_last [_, _, _, _] _⟩

theorem isManaged_extension {target : Str} (extension : target ∈ extensionTargets) :
    ClusterSet.isManaged target = false := by
  revert target
  decide

theorem mem_registerJump {rules : List (List Str)} {target : Option Str} {args : List Str} :
    args ∈ registerJump rules target ↔
      args ∈ rules ∨ ∃ chain ∈ target, args = Table.jumpTo chain := by
  cases target with
  | none => simp [registerJump]
  | some chain => simp [registerJump, mem_register]

theorem isolated_tableSync (isolated : Isolated table) (post : postroutingChain ∈ table.chains)
    (sync : Sync) (args : SyncArgs) :
    Isolated (withRules (prepared table sync) (args.rules sync)) where
  nodup := nodup_prepared isolated.nodup sync
  hooks hook mem := (mem_chains_prepared table sync hook).mpr (.inl (isolated.hooks hook mem))
  missing chain absent := by
    obtain ⟨missing, other⟩ := not_or.mp ((mem_chains_prepared table sync chain).not.mp absent)
    rw [rules_tableSync_other table other, isolated.missing chain missing]
    cases found : sync.target chain with
    | none => rfl
    | some target =>
      rcases (Sync.of_target found).1 with rfl | rfl
      · exact absurd (isolated.hooks _ (by decide)) missing
      · exact absurd post missing
  foreign chain not_own line in_rules target found := by
    by_cases own : chain ∈ sync.chains
    · rw [rules_tableSync_own table own, chainArgs, mem_map] at in_rules
      obtain ⟨rule, in_filter, rfl⟩ := in_rules
      obtain ⟨extension, is_extension, target_eq⟩ :=
        target_of_mem_rules (mem_filter.mp in_filter).1
      obtain rfl := Option.some.inj (target_eq.symm.trans found)
      exact isManaged_extension is_extension
    · rw [rules_tableSync_other table own, mem_registerJump] at in_rules
      rcases in_rules with before | ⟨jumped, jump, rfl⟩
      · exact isolated.foreign chain not_own line before target found
      · rw [jumpTarget_jumpTo] at found
        obtain rfl := Option.some.inj found
        exact isManaged_of_not_isOwn (Sync.not_isOwn_of_mem_chains (Sync.of_target jump).2)

variable {α : Type} {family : Family α}

theorem rebuilds_fixed {args : SyncArgs} (isolated : Isolated table)
    (post : postroutingChain ∈ table.chains)
    (done : (args.ofFamily six).tableSync family table sync = .ok after) :
    (Call.fixed sync args).Rebuilds go six table after := by
  have builtins : HasBuiltins table := ⟨isolated.hooks _ (by decide), post⟩
  obtain ⟨-, rfl⟩ := (tableSync_eq_ok builtins).mp done
  refine ⟨isolated_tableSync isolated post sync _, fun chain own => ?_, fun chain other => ?_,
    fun chain own => ?_, fun chain other => ?_⟩
  · exact rules_tableSync_own table (of_decide_eq_true own)
  · exact rules_tableSync_other table (of_decide_eq_false other)
  · have own : chain ∈ sync.chains := of_decide_eq_true own
    exact iff_of_true ((mem_chains_prepared table sync chain).mpr (.inr own)) own
  · exact (mem_chains_prepared table sync chain).trans (or_iff_left (of_decide_eq_false other))

/-- What a call does to one table. -/
def Call.OnTable (family : Family α) (go : Runtime Unit) (six : Bool) :
    Call → Table → Table → Prop
  | clusterSet services, table, after =>
    (ClusterSet.syncClusterSet go (servicesOf six services)).on table = .ok after
  | fixed sync args, table, after => (args.ofFamily six).tableSync family table sync = .ok after

theorem Call.OnTable.rebuilds {call : Call}
    (isolated : Isolated table) (post : postroutingChain ∈ table.chains)
    (done : call.OnTable family go six table after) : call.Rebuilds go six table after := by
  cases call with
  | clusterSet services => exact rebuilds_clusterSet isolated done
  | fixed sync args => exact rebuilds_fixed isolated post done

/-- The jumps of a foreign chain, each once, before the old rules, with those that the calls need.
-/
def Jumps (calls : List Call) (chain : Str) (old rules : List (List Str)) : Prop :=
  ∃ targets : List Str, targets.Nodup ∧ (∀ target ∈ targets, isDWX target = true) ∧
    (∀ call ∈ calls, ∀ target ∈ call.target chain, target ∈ targets) ∧
      rules = targets.map Table.jumpTo ++ old

/-- What all runs keep about a table. -/
structure Settled (go : Runtime Unit) (six : Bool) (calls : List Call) (base table : Table) :
    Prop where
  isolated : Isolated table
  postrouting : postroutingChain ∈ table.chains
  contents : ∀ chain, isDWX chain = true → table.rules chain = plannedContent go six calls chain
  chains : ∀ chain, isDWX chain = true → chain ≠ rootChain →
    (chain ∈ table.chains ↔ PlannedChain go six calls chain)
  foreign : ∀ chain, isDWX chain = false → (chain ∈ table.chains ↔ chain ∈ base.chains)
  jumps : ∀ chain, isDWX chain = false → Jumps calls chain (base.rules chain) (table.rules chain)

theorem Unmanaged.jumpTo_not_mem (unmanaged : Unmanaged table) {target : Str}
    (dwx : isDWX target = true) (chain : Str) : Table.jumpTo target ∉ table.rules chain := by
  intro mem
  rw [unmanaged.targets chain _ mem target (jumpTarget_jumpTo target)] at dwx
  cases dwx

theorem Jumps.step {calls : List Call} {old rules : List (List Str)}
    (jumps : Jumps calls chain old rules) (call : Call)
    (absent : ∀ target, isDWX target = true → Table.jumpTo target ∉ old) :
    Jumps (calls ++ [call]) chain old (registerJump rules (call.target chain)) := by
  obtain ⟨targets, nodup, dwx, needed, rfl⟩ := jumps
  cases found : call.target chain with
  | none =>
    refine ⟨targets, nodup, dwx, fun other mem target needs => ?_, rfl⟩
    rcases mem_append.mp mem with earlier | last
    · exact needed other earlier target needs
    · obtain rfl := mem_singleton.mp last
      rw [found] at needs
      cases needs
  | some new =>
    have new_dwx := (Call.of_target found).2
    refine ⟨register targets new, nodup_register nodup new, fun target mem => ?_,
      fun other mem target needs => ?_, ?_⟩
    · rcases mem_register.mp mem with earlier | rfl
      · exact dwx target earlier
      · exact new_dwx
    · rcases mem_append.mp mem with earlier | last
      · exact mem_register.mpr (.inl (needed other earlier target needs))
      · obtain rfl := mem_singleton.mp last
        obtain rfl := Option.some.inj (found.symm.trans needs)
        exact mem_register.mpr (.inr rfl)
    · exact register_map_append (fun _ _ => Table.jumpTo_injective) (absent new new_dwx) targets

theorem Settled.step {calls : List Call} {call : Call} {base : Table}
    (unmanaged : Unmanaged base) (settled : Settled go six calls base table)
    (done : call.OnTable family go six table after) :
    Settled go six (calls ++ [call]) base after := by
  have rebuilds := done.rebuilds settled.isolated settled.postrouting
  refine ⟨rebuilds.isolated, ?_, fun chain dwx => ?_, fun chain dwx not_root => ?_,
    fun chain foreign => ?_, fun chain foreign => ?_⟩
  · exact (rebuilds.chains_other _ (call.not_owns (by decide))).mpr settled.postrouting
  · cases own : call.owns chain with
    | true => rw [rebuilds.rules_own chain own, plannedContent, content_append_own own]
    | false =>
      rw [rebuilds.rules_other chain own, call.target_eq_none dwx, plannedContent,
        content_append_other own]
      exact settled.contents chain dwx
  · cases own : call.owns chain with
    | true => rw [rebuilds.chains_own chain own, PlannedChain, content_append_own own]
    | false =>
      rw [rebuilds.chains_other chain own, PlannedChain, content_append_other own]
      exact settled.chains chain dwx not_root
  · exact (rebuilds.chains_other chain (call.not_owns foreign)).trans
      (settled.foreign chain foreign)
  · rw [rebuilds.rules_other chain (call.not_owns foreign)]
    exact (settled.jumps chain foreign).step call fun target dwx =>
      unmanaged.jumpTo_not_mem dwx chain

theorem Unmanaged.isolated (unmanaged : Unmanaged table) : Isolated table where
  nodup := unmanaged.nodup
  hooks hook mem := by
    refine unmanaged.builtins hook ?_
    revert hook
    decide
  missing := unmanaged.missing
  foreign chain _ args mem target found := by
    refine Bool.eq_false_iff.mpr fun managed => ?_
    have dwx := isDWX_of_isManaged managed
    rw [unmanaged.targets chain args mem target found] at dwx
    cases dwx

theorem Unmanaged.rules_of_isDWX (unmanaged : Unmanaged table) (dwx : isDWX chain = true) :
    chain ∉ table.chains ∧ table.rules chain = [] := by
  have absent : chain ∉ table.chains := by
    intro listed
    rw [unmanaged.foreign chain listed] at dwx
    cases dwx
  exact ⟨absent, unmanaged.missing chain absent⟩

theorem Unmanaged.settled (unmanaged : Unmanaged table) (go : Runtime Unit) (six : Bool) :
    Settled go six [] table table where
  isolated := unmanaged.isolated
  postrouting := unmanaged.builtins _ (by decide)
  contents _ dwx := (unmanaged.rules_of_isDWX dwx).2
  chains _ dwx _ := iff_of_false (unmanaged.rules_of_isDWX dwx).1 id
  foreign _ _ := Iff.rfl
  jumps _ _ := ⟨[], nodup_nil, by simp, by simp, rfl⟩

theorem Unmanaged.settled_hooked (unmanaged : Unmanaged table) (go : Runtime Unit) (six : Bool) :
    Settled go six [] table (ClusterSet.hooked table) := by
  have created : ∀ chain, chain ≠ rootChain →
      (chain ∈ (ClusterSet.hooked table).chains ↔ chain ∈ table.chains) := fun chain apart => by
    rw [chains_hooked, mem_chains_withChain, or_iff_left apart]
  refine ⟨unmanaged.isolated.hooked, ?_, fun chain dwx => ?_, fun chain dwx not_root => ?_,
    fun chain foreign => ?_, fun chain foreign => ?_⟩
  · exact (created _ (by decide)).mpr (unmanaged.builtins _ (by decide))
  · have not_hook : chain ∉ hookChains := by
      intro hook
      have apart : ∀ hook ∈ hookChains, isDWX hook = false := by decide
      rw [apart chain hook] at dwx
      cases dwx
    have absent : rootChain ∉ table.chains := (unmanaged.rules_of_isDWX (by decide)).1
    rw [rules_hooked_of_not_hook table not_hook, withChain, if_neg absent]
    by_cases is_root : chain = rootChain
    · subst is_root
      exact Function.update_self rootChain [] table.rules
    · exact (Function.update_of_ne is_root ..).trans (unmanaged.rules_of_isDWX dwx).2
  · exact iff_of_false ((created chain not_root).not.mpr (unmanaged.rules_of_isDWX dwx).1) id
  · refine created chain ?_
    rintro rfl
    cases foreign
  · by_cases hook : chain ∈ hookChains
    · refine ⟨[rootChain], nodup_singleton _, by decide, by simp, ?_⟩
      rw [rules_hooked_hook table hook, register,
        if_neg (unmanaged.jumpTo_not_mem (by decide) chain)]
      rfl
    · refine ⟨[], nodup_nil, by simp, by simp, ?_⟩
      exact rules_hooked_of_ne table ((Call.clusterSet []).not_owns foreign) hook

theorem ClusterSet.on_ensureInfra (isolated : Isolated table) :
    ClusterSet.ensureInfra.on table = .ok (ClusterSet.hooked table) := by
  have leads : Leads False ClusterSet.ensureInfra table _ :=
    leads_ensureInfra isolated
  have reached := leads.returns (World.returns_exec ChainCommand.respond_obey _ table)
  rw [Procedure.on]
  generalize ClusterSet.ensureInfra.run.exec ChainCommand.obey table = run at reached ⊢
  obtain ⟨error | value, after⟩ := run
  · exact reached.elim
  · exact congrArg Except.ok reached

theorem Manager.runBoth_eq_ok {m after : Manager} {program4 program6 : Procedure} :
    m.runBoth program4 program6 = .ok after ↔
      program4.on m.ipt = .ok after.ipt ∧
        Option.Rel (fun table table' => program6.on table = .ok table') m.ipt6 after.ipt6 := by
  simp only [runBoth, except_bind_eq_ok, ← mapM_eq_ok]
  constructor
  · rintro ⟨ipt, done4, ipt6, done6, returned⟩
    cases returned
    exact ⟨done4, done6⟩
  · rintro ⟨done4, done6⟩
    exact ⟨after.ipt, done4, after.ipt6, done6, rfl⟩

theorem Manager.performs_iff {m after : Manager} {call : Call} :
    m.Performs go call after ↔ call.OnTable ipv4 go false m.ipt after.ipt ∧
      Option.Rel (call.OnTable ipv6 go true) m.ipt6 after.ipt6 := by
  cases call with
  | clusterSet services => exact runBoth_eq_ok
  | fixed sync args =>
    rw [Performs, sync_eq]
    exact dispatch_eq_ok

/-- What all runs keep about both tables. -/
def Manager.Settled (go : Runtime Unit) (calls : List Call) (base m : Manager) : Prop :=
  NatPlane.Settled go false calls base.ipt m.ipt ∧
    Option.Rel (NatPlane.Settled go true calls) base.ipt6 m.ipt6

/-- Both tables are without chains of a manager. -/
def Manager.Unmanaged (m : Manager) : Prop :=
  NatPlane.Unmanaged m.ipt ∧ ∀ table ∈ m.ipt6, NatPlane.Unmanaged table

section Runs

variable {go : Runtime Unit} {base start m after : Manager} {calls : List Call} {call : Call}

/-- The tables are as they were before the manager, or as `NewManager` leaves them. -/
def Manager.Opens (base start : Manager) : Prop :=
  start = base ∨ base.newManager = .ok start

theorem Manager.Opens.settled (opens : base.Opens start) (unmanaged : base.Unmanaged) :
    Manager.Settled go [] base start := by
  obtain ⟨unmanaged4, unmanaged6⟩ := unmanaged
  obtain ⟨ipt, ipt6⟩ := base
  rcases opens with rfl | created
  · refine ⟨unmanaged4.settled go false, ?_⟩
    cases ipt6 with
    | none => exact .none
    | some table => exact .some ((unmanaged6 table rfl).settled go true)
  · obtain ⟨start4, start6⟩ := start
    obtain ⟨done4, done6⟩ := runBoth_eq_ok.mp created
    rw [on_ensureInfra unmanaged4.isolated] at done4
    obtain rfl := Except.ok.inj done4
    refine ⟨unmanaged4.settled_hooked go false, ?_⟩
    cases done6 with
    | none => exact .none
    | some done =>
      have fresh := unmanaged6 _ rfl
      rw [on_ensureInfra fresh.isolated] at done
      obtain rfl := Except.ok.inj done
      exact .some (fresh.settled_hooked go true)

theorem Manager.Settled.step (unmanaged : base.Unmanaged)
    (settled : Manager.Settled go calls base m) (performs : m.Performs go call after) :
    Manager.Settled go (calls ++ [call]) base after := by
  obtain ⟨unmanaged4, unmanaged6⟩ := unmanaged
  obtain ⟨settled4, settled6⟩ := settled
  obtain ⟨done4, done6⟩ := performs_iff.mp performs
  refine ⟨settled4.step unmanaged4 done4, ?_⟩
  generalize base.ipt6 = before, m.ipt6 = middle, after.ipt6 = final at unmanaged6 settled6 done6 ⊢
  cases settled6 with
  | none =>
    cases done6
    exact .none
  | some settled =>
    cases done6 with
    | some done => exact .some (settled.step (unmanaged6 _ rfl) done)

theorem Manager.Runs.settled (unmanaged : base.Unmanaged) (opens : base.Opens start)
    (runs : start.Runs go calls after) : Manager.Settled go calls base after := by
  induction runs with
  | start => exact opens.settled unmanaged
  | call _ performs ih => exact ih.step unmanaged performs

/-- A table can read the operands of a call, of which those of the fixed chains are modelled. -/
def Call.accepted (family : Family α) (six : Bool) : Call → Bool
  | clusterSet _ => true
  | fixed sync args =>
    ((args.ofFamily six).rules sync).all fun rule => accepts family rule.args

theorem Settled.exists_onTable {six : Bool} {base table : Table}
    (settled : Settled go six calls base table) (accepted : call.accepted family six = true) :
    ∃ after, call.OnTable family go six table after := by
  cases call with
  | clusterSet services =>
    have run := (exec_syncClusterSet settled.isolated go (servicesOf six services)).1
    refine ⟨ClusterSet.synced table (ClusterSet.buildRuleset go (servicesOf six services)), ?_⟩
    rw [Call.OnTable, Procedure.on, run]
  | fixed sync args =>
    have builtins : HasBuiltins table :=
      ⟨settled.isolated.hooks _ (by decide), settled.postrouting⟩
    exact ⟨_, (tableSync_eq_ok builtins).mpr ⟨all_eq_true.mp accepted, rfl⟩⟩

theorem Manager.Opens.exists_runs (opens : base.Opens start) (unmanaged : base.Unmanaged)
    (accepted : ∀ call ∈ calls, call.accepted ipv4 false = true ∧ call.accepted ipv6 true = true) :
    ∃ after, start.Runs go calls after := by
  induction calls using List.reverseRecOn with
  | nil => exact ⟨start, .start⟩
  | append_singleton calls call ih =>
    obtain ⟨m, runs⟩ := ih fun other mem => accepted other (mem_append_left _ mem)
    obtain ⟨accepted4, accepted6⟩ := accepted call (mem_append_right _ mem_cons_self)
    obtain ⟨settled4, settled6⟩ := runs.settled unmanaged opens
    obtain ⟨after4, done4⟩ := settled4.exists_onTable accepted4
    obtain ⟨after6, done6⟩ : ∃ after6, Option.Rel (call.OnTable ipv6 go true) m.ipt6 after6 := by
      generalize base.ipt6 = before, m.ipt6 = middle at settled6
      cases settled6 with
      | none => exact ⟨none, .none⟩
      | some settled =>
        obtain ⟨after6, done⟩ := settled.exists_onTable accepted6
        exact ⟨some after6, .some done⟩
    exact ⟨⟨after4, after6⟩, .call runs (performs_iff.mpr ⟨done4, done6⟩)⟩

theorem Settled.undisturbed {six : Bool} {base table : Table} (unmanaged : Unmanaged base)
    (settled : Settled go six calls base table) : Undisturbed go six calls base table where
  contents := settled.contents
  chains := settled.chains
  foreign := settled.foreign
  kept chain foreign := by
    obtain ⟨targets, -, dwx, -, rules_eq⟩ := settled.jumps chain foreign
    exact ⟨targets, dwx, rules_eq⟩
  jumps call mem builtin target needs := by
    obtain ⟨foreign, target_dwx⟩ := Call.of_target needs
    obtain ⟨targets, nodup, -, needed, rules_eq⟩ := settled.jumps builtin foreign
    have once : (targets.map Table.jumpTo).count (Table.jumpTo target) = 1 :=
      count_eq_one_of_mem (nodup.map fun _ _ => Table.jumpTo_injective)
        (mem_map_of_mem (needed call mem target needs))
    rw [rules_eq, count_append, once,
      count_eq_zero_of_not_mem (unmanaged.jumpTo_not_mem target_dwx builtin)]

/-- The four syncs of a manager do not interfere: after any successful calls every chain of the
manager holds what the planner of its own sync computes for the last call of that sync, and the
other chains have their old rules behind jumps to such chains, each needed one once. -/
theorem syncs_undisturbed (go : Runtime Unit) (base start after : Manager) (calls : List Call)
    (unmanaged : base.Unmanaged) (opens : base.Opens start) (runs : start.Runs go calls after) :
    Undisturbed go false calls base.ipt after.ipt ∧
      Option.Rel (Undisturbed go true calls) base.ipt6 after.ipt6 := by
  obtain ⟨settled4, settled6⟩ := runs.settled unmanaged opens
  obtain ⟨unmanaged4, unmanaged6⟩ := unmanaged
  refine ⟨settled4.undisturbed unmanaged4, ?_⟩
  generalize base.ipt6 = before, after.ipt6 = final at unmanaged6 settled6 ⊢
  cases settled6 with
  | none => exact .none
  | some settled => exact .some (settled.undisturbed (unmanaged6 _ rfl))

end Runs

/-- A nat table with a foreign rule. -/
def kubeTable : Table where
  chains := [preroutingChain, "OUTPUT", postroutingChain, "KUBE-POSTROUTING"]
  rules chain := if chain = postroutingChain then [Table.jumpTo "KUBE-POSTROUTING"] else []

theorem kubeTable_unmanaged : Unmanaged kubeTable where
  nodup := by decide
  builtins := by decide
  missing chain absent := by
    refine if_neg ?_
    rintro rfl
    exact absent (by decide)
  foreign := by decide
  targets chain args mem target found := by
    rw [kubeTable] at mem
    dsimp only at mem
    split at mem
    · obtain rfl := mem_singleton.mp mem
      rw [jumpTarget_jumpTo] at found
      obtain rfl := Option.some.inj found
      decide
    · cases mem

theorem syncs_undisturbed_interleaved :
    let base : Manager := ⟨kubeTable, some kubeTable⟩
    let exempt (remotes : List Str) : Call :=
      .fixed .noMasq ⟨[], [str "10.244.0.0/16", str "fd00:a::/48"], remotes, [], []⟩
    let calls : List Call := [exempt [str "10.9.0.0/16"], .clusterSet [apiService],
      exempt [str "fd00:b::/48", str "10.245.0.0/16"], .clusterSet [apiService]]
    ∃ after, base.Runs (.stable Unit) calls after ∧
      after.ipt.rules noMasqChain = [[str "-s", str "10.244.0.0/16", str "-d",
        str "10.245.0.0/16", str "-j", str "ACCEPT"]] ∧
      (after.ipt.rules postroutingChain).count (Table.jumpTo noMasqChain) = 1 ∧
      ∃ table, after.ipt6 = some table ∧ table.rules noMasqChain =
        [[str "-s", str "fd00:a::/48", str "-d", str "fd00:b::/48", str "-j", str "ACCEPT"]] := by
  intro base exempt calls
  have unmanaged : base.Unmanaged := by
    refine ⟨kubeTable_unmanaged, fun table same => ?_⟩
    obtain rfl := Option.some.inj same
    exact kubeTable_unmanaged
  have accepted : ∀ call ∈ calls,
      call.accepted ipv4 false = true ∧ call.accepted ipv6 true = true := by
    simp only [calls, forall_mem_cons]
    decide +kernel
  obtain ⟨after, runs⟩ := Manager.Opens.exists_runs (.inl rfl) unmanaged accepted
  obtain ⟨four, six⟩ :=
    syncs_undisturbed (.stable Unit) base base after calls unmanaged (.inl rfl) runs
  refine ⟨after, runs, ?_, ?_, ?_⟩
  · exact (four.contents noMasqChain (by decide)).trans (by decide +kernel)
  · exact four.jumps (exempt [str "10.9.0.0/16"]) mem_cons_self postroutingChain _ rfl
  · generalize after.ipt6 = final at six
    cases six with
    | some undisturbed =>
      exact ⟨_, rfl, (undisturbed.contents noMasqChain (by decide)).trans (by decide +kernel)⟩

end DatawerxMesh.NatPlane
