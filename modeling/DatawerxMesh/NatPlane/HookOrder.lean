import DatawerxMesh.NatPlane.Manager

/-!
# The order of the POSTROUTING hooks

Three controllers hook their chains in front of POSTROUTING when they first run.  After any schedule
the hooks stand in reverse order of the first runs.
-/

namespace DatawerxMesh.NatPlane

open Go Program Netfilter Scheduling List Function

/-- The syncs whose chains are hooked into POSTROUTING. -/
inductive Sync where
  | remap
  | noMasq
  | gateway
  deriving DecidableEq

/-- The three syncs. -/
def Sync.all : List Sync := [remap, noMasq, gateway]

theorem Sync.mem_all (sync : Sync) : sync ∈ all := by
  cases sync <;> decide

/-- The chain that a sync hooks into POSTROUTING. -/
def Sync.chain : Sync → Str
  | remap => remapPostChain
  | noMasq => noMasqChain
  | gateway => gatewayMasqChain

theorem Sync.chain_injective {left right : Sync} (same : left.chain = right.chain) :
    left = right := by
  revert same
  cases left <;> cases right <;> decide

/-- The chains of a sync. -/
def Sync.chains : Sync → List Str
  | remap => [remapPreChain, remapPostChain]
  | noMasq => [noMasqChain]
  | gateway => [gatewayMasqChain]

/-- The chain to which a sync jumps from a built-in chain. -/
def Sync.target (builtin : Str) : Sync → Option Str
  | remap =>
    if builtin = preroutingChain then some remapPreChain
    else if builtin = postroutingChain then some remapPostChain else none
  | noMasq => if builtin = postroutingChain then some noMasqChain else none
  | gateway => if builtin = postroutingChain then some gatewayMasqChain else none

theorem Sync.chain_mem_chains (sync : Sync) : sync.chain ∈ sync.chains := by
  cases sync <;> decide

theorem Sync.postrouting_not_mem_chains (sync : Sync) : postroutingChain ∉ sync.chains := by
  cases sync <;> decide

theorem Sync.target_postrouting (sync : Sync) : sync.target postroutingChain = some sync.chain := by
  cases sync <;> rfl

theorem Sync.chain_apart {sync other : Sync} (differs : other ≠ sync) :
    other.chain ∉ sync.chains ∧ sync.target other.chain = none := by
  revert differs
  cases sync <;> cases other <;> decide

/-- Arguments of the three syncs. -/
structure SyncArgs where
  entries : List RemapEntry
  locals : List Str
  remotes : List Str
  clientCIDRs : List Str
  destCIDRs : List Str

namespace SyncArgs

/-- What a table of one family is given. -/
def ofFamily (six : Bool) (args : SyncArgs) : SyncArgs where
  entries := entriesOf six args.entries
  locals := NatPlane.ofFamily six args.locals
  remotes := NatPlane.ofFamily six args.remotes
  clientCIDRs := NatPlane.ofFamily six args.clientCIDRs
  destCIDRs := NatPlane.ofFamily six args.destCIDRs

/-- The rules that a sync plans for a table. -/
def rules (args : SyncArgs) : Sync → List Rule
  | .remap => buildRemapRules args.entries
  | .noMasq => buildNoMasqRules args.locals args.remotes
  | .gateway => buildGatewayMasqRules args.clientCIDRs args.destCIDRs

/-- A sync of one table. -/
def tableSync {α : Type} (family : Family α) (args : SyncArgs) (table : Table) :
    Sync → Outcome NatError Table
  | .remap => syncRemap family table args.entries
  | .noMasq => syncNoMasq family table args.locals args.remotes
  | .gateway => syncGatewayMasq family table args.clientCIDRs args.destCIDRs

end SyncArgs

variable {args : SyncArgs} {α : Type} {table : Table} {chain : Str} {m : Manager}

/-- A sync of both tables. -/
def Manager.sync (args : SyncArgs) (m : Manager) : Sync → Outcome NatError Manager
  | .remap => m.syncRemap args.entries
  | .noMasq => m.syncMeshNoMasq args.locals args.remotes
  | .gateway => m.syncGatewayMasq args.clientCIDRs args.destCIDRs

/-- Syncs, one after the other. -/
def Manager.runSyncs (args : SyncArgs) (schedule : List Sync) (m : Manager) :
    Outcome NatError Manager :=
  schedule.foldlM (Manager.sync args) m

theorem Manager.sync_eq (args : SyncArgs) (m : Manager) (sync : Sync) :
    m.sync args sync = m.dispatch (args.ofFamily false |>.tableSync ipv4 · sync)
      (args.ofFamily true |>.tableSync ipv6 · sync) := by
  cases sync <;> rfl

/-- The table to which a sync appends its rules. -/
def prepared (table : Table) : Sync → Table
  | .remap =>
    ((withHook (withChain (withHook (withChain table remapPreChain) preroutingChain remapPreChain)
      remapPostChain) postroutingChain remapPostChain).clearChain remapPreChain).clearChain
        remapPostChain
  | .noMasq =>
    (withHook (withChain table noMasqChain) postroutingChain noMasqChain).clearChain noMasqChain
  | .gateway =>
    (withHook (withChain table gatewayMasqChain) postroutingChain gatewayMasqChain).clearChain
      gatewayMasqChain

/-- The built-in chains are there. -/
def HasBuiltins (table : Table) : Prop :=
  preroutingChain ∈ table.chains ∧ postroutingChain ∈ table.chains

theorem tableSync_eq (family : Family α) (args : SyncArgs) (builtins : HasBuiltins table)
    (sync : Sync) :
    args.tableSync family table sync =
      appendRules family (prepared table sync) (args.rules sync) := by
  obtain ⟨pre, post⟩ := builtins
  have kept : ∀ (chain : Str) {builtin : Str} {table : Table}, builtin ∈ table.chains →
      builtin ∈ (withChain table chain).chains :=
    fun _ _ _ mem => mem_chains_withChain.mpr (Or.inl mem)
  cases sync with
  | remap =>
    have pre_hook := ensureHook_eq (kept remapPreChain pre) remapPreChain
    have post_kept : postroutingChain ∈ (withHook (withChain table remapPreChain) preroutingChain
        remapPreChain).chains := kept remapPreChain post
    have post_hook := ensureHook_eq (kept remapPostChain post_kept) remapPostChain
    simp only [SyncArgs.tableSync, syncRemap, ensureChain_eq, Outcome.ok_bind, pre_hook, post_hook]
    rfl
  | noMasq =>
    have post_hook := ensureHook_eq (kept noMasqChain post) noMasqChain
    simp only [SyncArgs.tableSync, syncNoMasq, ensureChain_eq, Outcome.ok_bind, post_hook]
    rfl
  | gateway =>
    have post_hook := ensureHook_eq (kept gatewayMasqChain post) gatewayMasqChain
    simp only [SyncArgs.tableSync, syncGatewayMasq, ensureChain_eq, Outcome.ok_bind, post_hook]
    rfl

/-- The rules of a chain in which a jump is registered, if there is one. -/
def registerJump (rules : List (List Str)) (target : Option Str) : List (List Str) :=
  target.elim rules fun target => register rules (Table.jumpTo target)

theorem rules_clearChain_self (table : Table) (chain : Str) :
    (table.clearChain chain).rules chain = [] :=
  update_self ..

theorem rules_clearChain_of_ne {other : Str} (apart : other ≠ chain) :
    (table.clearChain chain).rules other = table.rules other :=
  update_of_ne apart _ _

theorem rules_withHook_withChain {builtin target : Str} (apart : chain ≠ target) :
    (withHook (withChain table target) builtin target).rules chain =
      registerJump (table.rules chain) (if chain = builtin then some target else none) := by
  have created : (withChain table target).rules chain = table.rules chain := rules_withChain apart
  split
  case isTrue same =>
    subst same
    rw [rules_withHook_self, created]
    rfl
  case isFalse differs =>
    rw [rules_withHook_of_ne differs, created]
    rfl

variable {sync : Sync}

theorem rules_prepared_own (table : Table) (own : chain ∈ sync.chains) :
    (prepared table sync).rules chain = [] := by
  have apart : remapPreChain ≠ remapPostChain := by decide
  cases sync with
  | remap =>
    rcases mem_pair.mp own with rfl | rfl
    · exact (rules_clearChain_of_ne apart).trans (rules_clearChain_self ..)
    · exact rules_clearChain_self ..
  | noMasq =>
    obtain rfl := mem_singleton.mp own
    exact rules_clearChain_self ..
  | gateway =>
    obtain rfl := mem_singleton.mp own
    exact rules_clearChain_self ..

theorem rules_prepared_other (table : Table) (other : chain ∉ sync.chains) :
    (prepared table sync).rules chain = registerJump (table.rules chain) (sync.target chain) := by
  have builtins : preroutingChain ≠ postroutingChain := by decide
  cases sync with
  | remap =>
    obtain ⟨not_pre, not_post⟩ : chain ≠ remapPreChain ∧ chain ≠ remapPostChain := by
      simpa [Sync.chains] using other
    refine (rules_clearChain_of_ne not_post).trans ((rules_clearChain_of_ne not_pre).trans ?_)
    rw [rules_withHook_withChain not_post, rules_withHook_withChain not_pre, Sync.target]
    by_cases first : chain = preroutingChain
    · have not_second : chain ≠ postroutingChain := first ▸ builtins
      rw [if_pos first, if_pos first, if_neg not_second]
      rfl
    · rw [if_neg first, if_neg first]
      rfl
  | noMasq =>
    have apart : chain ≠ noMasqChain := by simpa [Sync.chains] using other
    exact (rules_clearChain_of_ne apart).trans (rules_withHook_withChain apart)
  | gateway =>
    have apart : chain ≠ gatewayMasqChain := by simpa [Sync.chains] using other
    exact (rules_clearChain_of_ne apart).trans (rules_withHook_withChain apart)

theorem chain_of_mem_rules {rule : Rule} (mem : rule ∈ args.rules sync) :
    rule.chain ∈ sync.chains := by
  cases sync with
  | remap =>
    rcases mem_append.mp mem with in_pre | in_post
    · obtain ⟨entry, -, rfl⟩ := mem_map.mp in_pre
      exact mem_cons_self
    · obtain ⟨entry, -, rfl⟩ := mem_map.mp in_post
      exact mem_cons_of_mem _ mem_cons_self
  | noMasq =>
    obtain ⟨-, -, -, -, -, -, -, rfl⟩ := mem_pairRules.mp mem
    exact mem_cons_self
  | gateway =>
    obtain ⟨-, -, -, -, -, -, -, rfl⟩ := mem_pairRules.mp (mem_buildGatewayMasqRules.mp mem)
    exact mem_cons_self

theorem chainArgs_eq_nil {rules : List Rule} (apart : ∀ rule ∈ rules, rule.chain ≠ chain) :
    chainArgs chain rules = [] := by
  rw [chainArgs, filter_eq_nil_iff.mpr, map_nil]
  intro rule mem
  simpa using apart rule mem

theorem mem_chains_prepared (table : Table) (sync : Sync) (chain : Str) :
    chain ∈ (prepared table sync).chains ↔ chain ∈ table.chains ∨ chain ∈ sync.chains := by
  cases sync with
  | remap =>
    simp only [prepared, mem_chains_clearChain, withHook, mem_chains_withChain, Sync.chains,
      mem_pair]
    tauto
  | noMasq => simp [prepared, mem_chains_clearChain, withHook, mem_chains_withChain, Sync.chains]
  | gateway => simp [prepared, mem_chains_clearChain, withHook, mem_chains_withChain, Sync.chains]

theorem tableSync_eq_ok {family : Family α} {after : Table} (builtins : HasBuiltins table) :
    args.tableSync family table sync = .ok after ↔
      (∀ rule ∈ args.rules sync, accepts family rule.args = true) ∧
        after = withRules (prepared table sync) (args.rules sync) := by
  rw [tableSync_eq family args builtins sync]
  refine appendRules_eq_ok fun rule mem => ?_
  exact (mem_chains_prepared table sync rule.chain).mpr (Or.inr (chain_of_mem_rules mem))

theorem hasBuiltins_of_tableSync (builtins : HasBuiltins table) (sync : Sync) (rules : List Rule) :
    HasBuiltins (withRules (prepared table sync) rules) :=
  ⟨(mem_chains_prepared table sync _).mpr (Or.inl builtins.1),
    (mem_chains_prepared table sync _).mpr (Or.inl builtins.2)⟩

/-- The rules that a sync writes. -/
def SyncArgs.content (args : SyncArgs) (sync : Sync) : List (List Str) :=
  chainArgs sync.chain (args.rules sync)

theorem rules_tableSync_own (table : Table) (own : chain ∈ sync.chains) :
    (withRules (prepared table sync) (args.rules sync)).rules chain =
      chainArgs chain (args.rules sync) := by
  rw [rules_withRules, rules_prepared_own table own, nil_append]

theorem rules_tableSync_other (table : Table) (other : chain ∉ sync.chains) :
    (withRules (prepared table sync) (args.rules sync)).rules chain =
      registerJump (table.rules chain) (sync.target chain) := by
  have none_planned : chainArgs chain (args.rules sync) = [] :=
    chainArgs_eq_nil fun rule mem same => other (same ▸ chain_of_mem_rules mem)
  rw [rules_withRules, rules_prepared_other table other, none_planned, append_nil]

/-- Syncs of one table, one after the other. -/
def SyncArgs.runTable {α : Type} (family : Family α) (args : SyncArgs) (schedule : List Sync)
    (table : Table) : Outcome NatError Table :=
  schedule.foldlM (args.tableSync family) table

/-- None of the hooks is in POSTROUTING. -/
def Unhooked (table : Table) : Prop :=
  ∀ sync : Sync, Table.jumpTo sync.chain ∉ table.rules postroutingChain

/-- Hooks in order of registration in front of the old rules, and filled chains. -/
structure Reached (args : SyncArgs) (base : Table) (schedule : List Sync) (table : Table) :
    Prop where
  builtins : HasBuiltins table
  hooks : table.rules postroutingChain =
    (firstRuns schedule).map (fun sync => Table.jumpTo sync.chain) ++ base.rules postroutingChain
  filled : ∀ sync ∈ schedule, table.rules sync.chain = args.content sync

theorem Sync.jump_injective : Injective fun sync : Sync => Table.jumpTo sync.chain :=
  fun _ _ same => Sync.chain_injective (Table.jumpTo_injective same)

theorem Reached.step {base : Table} {schedule : List Sync} (unhooked : Unhooked base)
    (reached : Reached args base schedule table) (sync : Sync) :
    Reached args base (schedule ++ [sync]) (withRules (prepared table sync) (args.rules sync)) := by
  refine ⟨hasBuiltins_of_tableSync reached.builtins sync _, ?_, fun other mem => ?_⟩
  · rw [rules_tableSync_other table sync.postrouting_not_mem_chains, sync.target_postrouting,
      firstRuns_append_singleton, ← register_map_append Sync.jump_injective (unhooked sync),
      ← reached.hooks]
    rfl
  · by_cases same : other = sync
    · rw [same, rules_tableSync_own table sync.chain_mem_chains]
      rfl
    · obtain ⟨not_own, no_jump⟩ := Sync.chain_apart same
      rw [rules_tableSync_other table not_own, no_jump]
      refine reached.filled other ?_
      simpa [same] using mem

/-- A schedule succeeds exactly when the table accepts the rules of all its syncs. -/
theorem runTable_spec (family : Family α) (args : SyncArgs) {base : Table}
    (builtins : HasBuiltins base) (unhooked : Unhooked base) (schedule : List Sync) :
    (∀ after, args.runTable family schedule base = .ok after → Reached args base schedule after) ∧
      ((∃ after, args.runTable family schedule base = .ok after) ↔
        ∀ sync ∈ schedule, ∀ rule ∈ args.rules sync, accepts family rule.args = true) := by
  induction schedule using List.reverseRecOn with
  | nil =>
    refine ⟨fun after done => ?_, by simp [SyncArgs.runTable]⟩
    obtain rfl := Outcome.ok.inj done
    exact ⟨builtins, rfl, by simp⟩
  | append_singleton schedule sync ih =>
    obtain ⟨reaches, succeeds⟩ := ih
    have split : ∀ after, args.runTable family (schedule ++ [sync]) base = .ok after ↔
        ∃ table, args.runTable family schedule base = .ok table ∧
          args.tableSync family table sync = .ok after := by
      intro after
      rw [SyncArgs.runTable, foldlM_append, Outcome.bind_eq_ok]
      simp only [foldlM_cons, foldlM_nil, bind_pure, SyncArgs.runTable]
    constructor
    · intro after done
      obtain ⟨table, earlier, last⟩ := (split after).mp done
      have reached := reaches table earlier
      obtain ⟨-, rfl⟩ := (tableSync_eq_ok reached.builtins).mp last
      exact reached.step unhooked sync
    · simp only [split, forall_mem_append, forall_mem_singleton, ← succeeds]
      constructor
      · rintro ⟨after, table, earlier, last⟩
        exact ⟨⟨table, earlier⟩, ((tableSync_eq_ok (reaches table earlier).builtins).mp last).1⟩
      · rintro ⟨⟨table, earlier⟩, accepted⟩
        exact ⟨_, table, earlier,
          (tableSync_eq_ok (reaches table earlier).builtins).mpr ⟨accepted, rfl⟩⟩

section Decisions

variable {α : Type} (family : Family α)

/-- What the rules of a sync decide. -/
def SyncArgs.decision (args : SyncArgs) (packet : Packet α) (sync : Sync) : Option (Decision α) :=
  evalRules family .postrouting noJump (args.content sync) packet

/-- Decision of POSTROUTING, with the decisions of the foreign rules given. -/
def postrouting (foreign : List Str → Packet α → Option (Decision α)) (table : Table)
    (packet : Packet α) : Option (Decision α) :=
  table.traverse family .postrouting (Sync.all.map Sync.chain) foreign postroutingChain packet

variable {family}

/-- The chains decide in order of registration, before the foreign rules. -/
theorem Reached.postrouting_eq {args : SyncArgs} {base table : Table} {schedule : List Sync}
    (unhooked : Unhooked base) (reached : Reached args base schedule table)
    (foreign : List Str → Packet α → Option (Decision α)) (packet : Packet α) :
    postrouting family foreign table packet =
      ((firstRuns schedule).findSome? (args.decision family packet)).or
        ((base.rules postroutingChain).findSome? fun rule => foreign rule packet) := by
  rw [postrouting, Table.traverse, reached.hooks, List.findSome?_append, List.findSome?_map]
  congr 1
  · refine findSome?_congr fun sync mem => ?_
    have own : (Sync.all.map Sync.chain).find? (fun chain =>
        Table.jumpTo chain = Table.jumpTo sync.chain) = some sync.chain := by
      cases sync <;> decide +kernel
    rw [comp_apply, own]
    change evalRules family .postrouting noJump (table.rules sync.chain) packet = _
    rw [reached.filled sync (mem_firstRuns.mp mem)]
    rfl
  · refine findSome?_congr fun rule mem => ?_
    have foreign_rule : (Sync.all.map Sync.chain).find? (fun chain =>
        Table.jumpTo chain = rule) = none := by
      rw [List.find?_eq_none]
      intro chain chain_mem
      obtain ⟨sync, -, rfl⟩ := mem_map.mp chain_mem
      have hook_ne : Table.jumpTo sync.chain ≠ rule := fun same => unhooked sync (same ▸ mem)
      simp [hook_ne]
    rw [foreign_rule]

variable (family) in
/-- Whatever the order of the first runs on a table, POSTROUTING decides every packet alike. -/
def SyncArgs.OrderFree (args : SyncArgs) (base : Table) : Prop :=
  ∀ left right after after', (∀ sync, sync ∈ left) → (∀ sync, sync ∈ right) →
    args.runTable family left base = .ok after → args.runTable family right base = .ok after' →
    ∀ foreign packet, postrouting family foreign after packet =
      postrouting family foreign after' packet

/-- The order is free exactly when no two chains disagree on a packet. -/
theorem runTable_order_free_iff {args : SyncArgs} {base : Table} (builtins : HasBuiltins base)
    (unhooked : Unhooked base)
    (accepted : ∀ sync, ∀ rule ∈ args.rules sync, accepts family rule.args = true) :
    args.OrderFree family base ↔ ∀ packet, Agree (args.decision family packet) := by
  constructor
  · intro same packet left right first second left_decided right_decided
    have runs : ∀ sync value, args.decision family packet sync = some value →
        ∃ after, args.runTable family (lastTo Sync.all sync) base = .ok after ∧
          postrouting family (fun _ _ => none) after packet = some value := by
      intro sync value decided
      obtain ⟨reaches, succeeds⟩ :=
        runTable_spec family args builtins unhooked (lastTo Sync.all sync)
      obtain ⟨after, done⟩ := succeeds.mpr fun other _ => accepted other
      refine ⟨after, done, ?_⟩
      rw [(reaches after done).postrouting_eq unhooked, findSome?_lastTo Sync.all sync decided]
      rfl
    obtain ⟨after, left_done, left_eq⟩ := runs left first left_decided
    obtain ⟨after', right_done, right_eq⟩ := runs right second right_decided
    have equal := same _ _ after after' (mem_lastTo Sync.mem_all left)
      (mem_lastTo Sync.mem_all right)
      left_done right_done (fun _ _ => none) packet
    rw [left_eq, right_eq] at equal
    exact Option.some.inj equal
  · intro agree left right after after' left_all right_all left_done right_done foreign packet
    have left_reached := (runTable_spec family args builtins unhooked left).1 after left_done
    have right_reached := (runTable_spec family args builtins unhooked right).1 after' right_done
    rw [left_reached.postrouting_eq unhooked, right_reached.postrouting_eq unhooked,
      (agree packet).findSome?_eq left_all right_all]

end Decisions

section Chains

variable {α : Type} {family : Family α} {args : SyncArgs} {packet : Packet α}

theorem decision_remap {packet : Packet (BitVec 32)} :
    args.decision ipv4 packet .remap =
      (firstMatch (postPairs args.entries) packet.source).map Decision.accept :=
  evalRules_post args.entries noJump packet

theorem decision_noMasq {decision : Decision α} :
    args.decision family packet .noMasq = some decision ↔
      decision = .accept packet.source ∧ ∃ source ∈ args.locals, ∃ destination ∈ args.remotes,
        source ≠ [] ∧ destination ≠ [] ∧ isIPv6 source = isIPv6 destination ∧
        family.member source packet.source = true ∧
        family.member destination packet.destination = true :=
  evalRules_pairs (fun _ => Iff.rfl) (fun _ _ => rfl) decision

theorem decision_gateway {decision : Decision α} :
    args.decision family packet .gateway = some decision ↔
      decision = .masquerade ∧ ∃ source ∈ args.clientCIDRs, ∃ destination ∈ args.destCIDRs,
        source ≠ [] ∧ destination ≠ [] ∧ isIPv6 source = isIPv6 destination ∧
        family.member source packet.source = true ∧
        family.member destination packet.destination = true :=
  evalRules_pairs (fun _ => mem_buildGatewayMasqRules) (fun _ _ => rfl) decision

theorem agree_iff {β : Type} {decision : Sync → Option β} :
    Agree decision ↔
      (∀ first second, decision .remap = some first → decision .noMasq = some second →
        first = second) ∧
      (∀ first second, decision .remap = some first → decision .gateway = some second →
        first = second) ∧
      ∀ first second, decision .noMasq = some first → decision .gateway = some second →
        first = second := by
  constructor
  · exact fun agree => ⟨agree .remap .noMasq, agree .remap .gateway, agree .noMasq .gateway⟩
  · rintro ⟨remap_noMasq, remap_gateway, noMasq_gateway⟩ left right first second left_eq right_eq
    cases left <;> cases right
    · exact Option.some.inj (left_eq.symm.trans right_eq)
    · exact remap_noMasq first second left_eq right_eq
    · exact remap_gateway first second left_eq right_eq
    · exact (remap_noMasq second first right_eq left_eq).symm
    · exact Option.some.inj (left_eq.symm.trans right_eq)
    · exact noMasq_gateway first second left_eq right_eq
    · exact (remap_gateway second first right_eq left_eq).symm
    · exact (noMasq_gateway second first right_eq left_eq).symm
    · exact Option.some.inj (left_eq.symm.trans right_eq)

end Chains

/-- A table with the built-in chains, none of the managed ones and no jumps to them. -/
structure FreshTable (table : Table) : Prop where
  builtins : HasBuiltins table
  absent : ∀ chain ∈ [remapPreChain, remapPostChain, noMasqChain, gatewayMasqChain],
    chain ∉ table.chains
  unhooked : Unhooked table

theorem FreshTable.order_free_iff {family : Family α} (fresh : FreshTable table)
    (succeeds : ∃ after, args.runTable family Sync.all table = .ok after) :
    (∀ schedule, ∃ after, args.runTable family schedule table = .ok after) ∧
      (args.OrderFree family table ↔ ∀ packet, Agree (args.decision family packet)) := by
  have spec := runTable_spec family args fresh.builtins fresh.unhooked
  have accepted : ∀ sync, ∀ rule ∈ args.rules sync, accepts family rule.args = true :=
    fun sync => (spec Sync.all).2.mp succeeds sync sync.mem_all
  exact ⟨fun schedule => (spec schedule).2.mpr fun sync _ => accepted sync,
    runTable_order_free_iff fresh.builtins fresh.unhooked accepted⟩

/-- No sync has run. -/
def Manager.Fresh (m : Manager) : Prop :=
  FreshTable m.ipt ∧ ∀ table, m.ipt6 = some table → FreshTable table

/-- Two states that treat leaving packets alike. -/
def SamePostrouting (left right : Manager) : Prop :=
  (∀ foreign packet, postrouting ipv4 foreign left.ipt packet =
    postrouting ipv4 foreign right.ipt packet) ∧
  ∀ foreign packet, left.ipt6.map (fun table => postrouting ipv6 foreign table packet) =
    right.ipt6.map fun table => postrouting ipv6 foreign table packet

theorem Manager.dispatch_eq_ok {after : Manager} {sync4 sync6 : Table → Outcome NatError Table} :
    m.dispatch sync4 sync6 = .ok after ↔
      sync4 m.ipt = .ok after.ipt ∧
        Option.Rel (fun table table' => sync6 table = .ok table') m.ipt6 after.ipt6 := by
  obtain ⟨ipt, ipt6⟩ := m
  rw [dispatch, Outcome.bind_eq_ok]
  cases ipt6 with
  | none =>
    constructor
    · rintro ⟨table, done, returned⟩
      obtain rfl := Outcome.ok.inj returned
      exact ⟨done, .none⟩
    · rintro ⟨done, related⟩
      obtain ⟨ipt', ipt6'⟩ := after
      cases related
      exact ⟨ipt', done, rfl⟩
  | some table =>
    constructor
    · rintro ⟨table4, done, rest⟩
      obtain ⟨table6, done6, returned⟩ := Outcome.bind_eq_ok.mp rest
      obtain rfl := Outcome.ok.inj returned
      exact ⟨done, .some done6⟩
    · rintro ⟨done, related⟩
      obtain ⟨ipt', ipt6'⟩ := after
      cases related with
      | some done6 => exact ⟨ipt', done, Outcome.bind_eq_ok.mpr ⟨_, done6, rfl⟩⟩

theorem Manager.runSyncs_eq_ok {schedule : List Sync} {after : Manager} :
    m.runSyncs args schedule = .ok after ↔
      (args.ofFamily false).runTable ipv4 schedule m.ipt = .ok after.ipt ∧
        Option.Rel (fun table table' =>
          (args.ofFamily true).runTable ipv6 schedule table = .ok table') m.ipt6 after.ipt6 := by
  induction schedule generalizing m with
  | nil =>
    obtain ⟨ipt, ipt6⟩ := m
    obtain ⟨ipt', ipt6'⟩ := after
    constructor
    · intro done
      cases done
      cases ipt6 with
      | none => exact ⟨rfl, .none⟩
      | some table => exact ⟨rfl, .some rfl⟩
    · rintro ⟨done, related⟩
      cases done
      cases related with
      | none => rfl
      | some done6 =>
        cases done6
        rfl
  | cons sync schedule ih =>
    rw [runSyncs, foldlM_cons, Outcome.bind_eq_ok]
    change (∃ middle, m.sync args sync = .ok middle ∧ middle.runSyncs args schedule = .ok after) ↔ _
    simp only [sync_eq, dispatch_eq_ok, ih, SyncArgs.runTable, foldlM_cons, Outcome.bind_eq_ok]
    constructor
    · rintro ⟨middle, ⟨first4, first6⟩, rest4, rest6⟩
      refine ⟨⟨middle.ipt, first4, rest4⟩, ?_⟩
      generalize m.ipt6 = start, middle.ipt6 = reached, after.ipt6 = final at first6 rest6 ⊢
      cases first6 with
      | none =>
        cases rest6
        exact .none
      | some done6 =>
        cases rest6 with
        | some later6 => exact .some ⟨_, done6, later6⟩
    · rintro ⟨⟨middle4, first4, rest4⟩, both6⟩
      generalize m.ipt6 = start, after.ipt6 = final at both6 ⊢
      cases both6 with
      | none => exact ⟨⟨middle4, none⟩, ⟨first4, .none⟩, rest4, .none⟩
      | some runs6 =>
        obtain ⟨middle6, done6, later6⟩ := runs6
        exact ⟨⟨middle4, some middle6⟩, ⟨first4, .some done6⟩, rest4, .some later6⟩

/-- Whatever the order of the first runs, POSTROUTING decides every packet alike. -/
def Manager.OrderFree (args : SyncArgs) (m : Manager) : Prop :=
  ∀ left right after after', (∀ sync, sync ∈ left) → (∀ sync, sync ∈ right) →
    m.runSyncs args left = .ok after → m.runSyncs args right = .ok after' →
    SamePostrouting after after'

theorem Manager.orderFree_iff_tables
    (runs4 : ∀ schedule, ∃ after, (args.ofFamily false).runTable ipv4 schedule m.ipt = .ok after)
    (runs6 : ∀ table, m.ipt6 = some table → ∀ schedule, ∃ after,
      (args.ofFamily true).runTable ipv6 schedule table = .ok after) :
    m.OrderFree args ↔ (args.ofFamily false).OrderFree ipv4 m.ipt ∧
      ∀ table, m.ipt6 = some table → (args.ofFamily true).OrderFree ipv6 table := by
  obtain ⟨ipt, ipt6⟩ := m
  cases ipt6 with
  | none =>
    constructor
    · intro free
      refine ⟨fun left right after after' left_all right_all left_done right_done => ?_, nofun⟩
      exact (free left right ⟨after, none⟩ ⟨after', none⟩ left_all right_all
        (runSyncs_eq_ok.mpr ⟨left_done, .none⟩) (runSyncs_eq_ok.mpr ⟨right_done, .none⟩)).1
    · rintro ⟨free4, -⟩ left right ⟨after4, after6⟩ ⟨after4', after6'⟩ left_all right_all left_done
        right_done
      obtain ⟨left4, left6⟩ := runSyncs_eq_ok.mp left_done
      obtain ⟨right4, right6⟩ := runSyncs_eq_ok.mp right_done
      cases left6
      cases right6
      exact ⟨free4 left right _ _ left_all right_all left4 right4, fun _ _ => rfl⟩
  | some table6 =>
    have runs6 := runs6 table6 rfl
    simp only [Option.some.injEq, forall_eq']
    constructor
    · intro free
      refine ⟨fun left right after after' left_all right_all left_done right_done => ?_,
        fun left right after after' left_all right_all left_done right_done foreign packet => ?_⟩
      · obtain ⟨left6, left_done6⟩ := runs6 left
        obtain ⟨right6, right_done6⟩ := runs6 right
        exact (free left right ⟨after, some left6⟩ ⟨after', some right6⟩ left_all right_all
          (runSyncs_eq_ok.mpr ⟨left_done, .some left_done6⟩)
          (runSyncs_eq_ok.mpr ⟨right_done, .some right_done6⟩)).1
      · obtain ⟨left4, left_done4⟩ := runs4 left
        obtain ⟨right4, right_done4⟩ := runs4 right
        exact Option.some.inj ((free left right ⟨left4, some after⟩ ⟨right4, some after'⟩ left_all
          right_all (runSyncs_eq_ok.mpr ⟨left_done4, .some left_done⟩)
          (runSyncs_eq_ok.mpr ⟨right_done4, .some right_done⟩)).2 foreign packet)
    · rintro ⟨free4, free6⟩ left right ⟨after4, after6⟩ ⟨after4', after6'⟩ left_all right_all
        left_done right_done
      obtain ⟨left4, left6⟩ := runSyncs_eq_ok.mp left_done
      obtain ⟨right4, right6⟩ := runSyncs_eq_ok.mp right_done
      refine ⟨free4 left right _ _ left_all right_all left4 right4, fun foreign packet => ?_⟩
      cases left6 with
      | some left6 =>
        cases right6 with
        | some right6 =>
          exact congrArg some (free6 left right _ _ left_all right_all left6 right6 foreign packet)

theorem Manager.orderFree_iff (fresh : m.Fresh)
    (succeeds : ∃ after, m.runSyncs args Sync.all = .ok after) :
    m.OrderFree args ↔
      (∀ packet, Agree ((args.ofFamily false).decision ipv4 packet)) ∧
        (m.ipt6.isSome → ∀ packet, Agree ((args.ofFamily true).decision ipv6 packet)) := by
  obtain ⟨fresh4, fresh6⟩ := fresh
  obtain ⟨after, done⟩ := succeeds
  obtain ⟨done4, done6⟩ := runSyncs_eq_ok.mp done
  obtain ⟨runs4, free4⟩ := fresh4.order_free_iff ⟨_, done4⟩
  have table6 : ∀ table, m.ipt6 = some table →
      (∀ schedule, ∃ after, (args.ofFamily true).runTable ipv6 schedule table = .ok after) ∧
        ((args.ofFamily true).OrderFree ipv6 table ↔
          ∀ packet, Agree ((args.ofFamily true).decision ipv6 packet)) := by
    intro table table_eq
    rw [table_eq] at done6
    generalize after.ipt6 = final at done6
    cases done6 with
    | some done6 => exact (fresh6 table table_eq).order_free_iff ⟨_, done6⟩
  rw [orderFree_iff_tables runs4 fun table table_eq => (table6 table table_eq).1, free4]
  refine and_congr_right fun _ => ⟨fun free present => ?_, fun agree table table_eq => ?_⟩
  · obtain ⟨table, table_eq⟩ := Option.isSome_iff_exists.mp present
    exact (table6 table table_eq).2.mp (free table table_eq)
  · exact (table6 table table_eq).2.mpr (agree (table_eq ▸ rfl))

end DatawerxMesh.NatPlane
