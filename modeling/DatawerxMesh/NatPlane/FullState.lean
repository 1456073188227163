import DatawerxMesh.NatPlane.ClusterSet

/-!
# A sync restores the full state

From every table whose foreign rules do not jump into the managed chains, a sync ends with the
planned chains and rules, also after one that failed on the way.
-/

namespace DatawerxMesh.NatPlane.ClusterSet

open Go Program World Netfilter Scheduling List Function ChainCommand

variable {table : Table} {chain : Str} {rs : Ruleset}

/-- No rule outside the chains of the sync jumps to a chain that the sync deletes. -/
structure Isolated (table : Table) : Prop where
  nodup : table.chains.Nodup
  hooks : ∀ hook ∈ hookChains, hook ∈ table.chains
  missing : ∀ chain ∉ table.chains, table.rules chain = []
  foreign : ∀ chain, isOwn chain = false → ∀ args ∈ table.rules chain,
    ∀ target ∈ jumpTarget args, isManaged target = false

section

variable (isolated : Isolated table) (own : isOwn chain = true)

include isolated own

theorem Isolated.edit {chains : List Str} (rules : List (List Str)) (nodup : chains.Nodup)
    (others : ∀ other ≠ chain, (other ∈ chains ↔ other ∈ table.chains))
    (missing : chain ∉ chains → rules = []) :
    Isolated ⟨chains, Function.update table.rules chain rules⟩ where
  nodup := nodup
  hooks hook mem := by
    have differs : hook ≠ chain := by
      rintro rfl
      rw [isOwn_hook mem] at own
      cases own
    exact (others hook differs).mpr (isolated.hooks hook mem)
  missing other absent := by
    by_cases same : other = chain
    · subst same
      simpa using missing absent
    · exact (update_of_ne same _ _).trans
        (isolated.missing other fun present => absent ((others other same).mpr present))
  foreign other not_own := by
    have differs : other ≠ chain := by
      rintro rfl
      rw [own] at not_own
      cases not_own
    have unchanged : Function.update table.rules chain rules other = table.rules other :=
      update_of_ne differs _ _
    intro args in_rules
    exact isolated.foreign other not_own args (unchanged ▸ in_rules)

theorem Isolated.newChain (absent : chain ∉ table.chains) :
    Isolated ⟨table.chains ++ [chain], Function.update table.rules chain []⟩ := by
  refine isolated.edit own [] ?_ (fun other differs => by simp [differs]) fun _ => rfl
  exact isolated.nodup.append (nodup_singleton _) (disjoint_singleton.mpr absent)

theorem Isolated.withChain :
    Isolated (withChain table chain) := by
  rw [NatPlane.withChain]
  split
  · exact isolated
  case isFalse absent => exact isolated.newChain own absent

theorem Isolated.clearChain
    (present : chain ∈ table.chains) : Isolated (table.clearChain chain) := by
  rw [Table.clearChain, if_pos present]
  exact isolated.edit own [] isolated.nodup (fun _ _ => Iff.rfl) fun _ => rfl

theorem Isolated.withRule (present : chain ∈ table.chains) (rules : List (List Str)) :
    Isolated { table with rules := Function.update table.rules chain rules } :=
  isolated.edit own rules isolated.nodup (fun _ _ => Iff.rfl) fun absent => absurd present absent

end

theorem Isolated.withHook (isolated : Isolated table) {hook : Str} (mem : hook ∈ hookChains) :
    Isolated (withHook table hook rootChain) where
  nodup := isolated.nodup
  hooks := isolated.hooks
  missing chain absent := by
    have differs : chain ≠ hook := fun same => absent (same ▸ isolated.hooks hook mem)
    rw [rules_withHook_of_ne differs]
    exact isolated.missing chain absent
  foreign chain not_own args in_rules target found := by
    by_cases same : chain = hook
    · subst same
      rw [rules_withHook_self, mem_register] at in_rules
      rcases in_rules with before | rfl
      · exact isolated.foreign chain not_own args before target found
      · rw [jumpTarget_jumpTo] at found
        obtain rfl := Option.some.inj found
        exact isManaged_rootChain
    · rw [rules_withHook_of_ne same] at in_rules
      exact isolated.foreign chain not_own args in_rules target found

/-- The chains of the sync have no rules. -/
def Emptied (table : Table) : Prop := ∀ chain, isOwn chain = true → table.rules chain = []

theorem not_refers (isolated : Isolated table) (emptied : Emptied table)
    (managed : isManaged chain = true) : ¬ table.Refers chain := by
  rintro ⟨other, -, args, in_rules, target⟩
  by_cases own : isOwn other = true
  · rw [emptied other own] at in_rules
    cases in_rules
  · have foreign := isolated.foreign other (by simpa using own) args in_rules chain target
    rw [managed] at foreign
    cases foreign

section Steps

variable {faulty : Prop} {table : Table} {rs : Ruleset} {chain : Str}

/-- A step keeps the table isolated, and ends in the given table unless a command fails. -/
abbrev Leads (faulty : Prop) (program : Procedure) (table after : Table) : Prop :=
  (ChainCommand.world faulty).Ensures Isolated
    (byResult (fun _ reached => reached = after) fun _ _ => faulty) program.run table

theorem Leads.bind {first : Procedure} {next : Unit → Procedure} {middle after : Table}
    (left : Leads faulty first table middle)
    (right : Isolated middle → Leads faulty (next ()) middle after) :
    Leads faulty (first >>= next) table after := by
  refine Ensures.attempt (left.with_always.mono ?_)
  rintro (error | value) seen ⟨isolated, holds⟩
  · exact holds
  · obtain rfl : seen = middle := holds
    exact right isolated

theorem Leads.forM {ι : Type} {body : ι → Procedure} {after : Table}
    (ready : List ι → Table → Prop) (isolated : ∀ left seen, ready left seen → Isolated seen)
    (finished : ∀ seen, ready [] seen → seen = after)
    (step : ∀ item left seen, ready (item :: left) seen →
      ∃ reached, Leads faulty (body item) seen reached ∧ ready left reached)
    {items : List ι} (start : ready items table) : Leads faulty (items.forM body) table after := by
  have rounds : ∀ item left seen, ready (item :: left) seen →
      (ChainCommand.world faulty).Ensures Isolated
        (byResult (fun _ reached => ready left reached) fun _ _ => faulty)
        (body item).run seen := by
    intro item left seen holds
    obtain ⟨reached, leads, later⟩ := step item left seen holds
    refine leads.mono ?_
    rintro (error | value) after holds
    · exact holds
    · exact holds ▸ later
  refine (Ensures.forM ready isolated rounds start).mono ?_
  rintro (error | value) seen holds
  · exact holds
  · exact finished seen holds

theorem leads_ensureChain (isolated : Isolated table) :
    Leads faulty (ensureChain rootChain) table (withChain table rootChain) := by
  have later := isolated.withChain isOwn_rootChain
  refine Ensures.attempt (ensures_attempt rfl isolated isolated ?_)
  by_cases present : rootChain ∈ table.chains
  · rw [withChain, if_pos present] at later ⊢
    rw [decide_eq_true present]
    exact ⟨isolated, rfl⟩
  · rw [withChain, if_neg present] at later ⊢
    rw [decide_eq_false present]
    have effect_eq : (ChainCommand.newChain rootChain).effect table =
        some ((), ⟨table.chains ++ [rootChain], Function.update table.rules rootChain []⟩) := by
      simp [ChainCommand.effect, Table.newChain, present]
    exact ensures_attempt effect_eq isolated later rfl

theorem leads_ensureHook (isolated : Isolated table) {hook : Str} (mem : hook ∈ hookChains)
    (root : rootChain ∈ table.chains) :
    Leads faulty (ensureHook hook rootChain) table (withHook table hook rootChain) := by
  have later := isolated.withHook mem
  have present := isolated.hooks hook mem
  refine Ensures.attempt (ensures_attempt rfl isolated isolated ?_)
  by_cases there : Table.jumpTo rootChain ∈ table.rules hook
  · rw [Table.hasRule, decide_eq_true there, decide_eq_true present, withHook_eq_self there]
    exact ⟨isolated, rfl⟩
  · rw [Table.hasRule, decide_eq_false there, Bool.and_false]
    have resolves : table.Resolves (Table.jumpTo rootChain) := by
      simp [Table.Resolves, jumpTarget_jumpTo, root]
    have effect_eq : (ChainCommand.insert hook (Table.jumpTo rootChain)).effect table =
        some ((), withHook table hook rootChain) := by
      simp [ChainCommand.effect, Table.insertRule, resolves, Table.insertFirst, present, withHook,
        register, there]
    exact ensures_attempt effect_eq isolated later rfl

/-- A table with the root chain and the jumps to it. -/
def hooked (table : Table) : Table :=
  hookChains.foldl (fun seen hook => withHook seen hook rootChain) (withChain table rootChain)

theorem leads_ensureInfra (isolated : Isolated table) :
    Leads faulty ensureInfra table (hooked table) := by
  refine (leads_ensureChain isolated).bind fun isolated => ?_
  let ready (left : List Str) (seen : Table) : Prop :=
    Isolated seen ∧ rootChain ∈ seen.chains ∧ (∀ hook ∈ left, hook ∈ hookChains) ∧
      left.foldl (fun seen hook => withHook seen hook rootChain) seen = hooked table
  have root : rootChain ∈ (withChain table rootChain).chains :=
    mem_chains_withChain.mpr (Or.inr rfl)
  refine Leads.forM ready (fun _ _ holds => holds.1) (fun _ holds => holds.2.2.2) ?_
    ⟨isolated, root, fun _ => id, rfl⟩
  rintro hook left seen ⟨isolated, root, members, rest⟩
  have mem := members hook mem_cons_self
  exact ⟨_, leads_ensureHook isolated mem root, isolated.withHook mem, root,
    fun other later => members other (mem_cons_of_mem _ later), rest⟩

/-- Some chains without their rules. -/
def flushed (table : Table) (chains : List Str) : Table :=
  { table with rules := fun chain => if chain ∈ chains then [] else table.rules chain }

/-- Some chains deleted. -/
def without (table : Table) (chains : List Str) : Table :=
  { table with chains := table.chains.filter (· ∉ chains) }

/-- Some chains created. -/
def withChains (table : Table) (chains : List Str) : Table :=
  { table with chains := table.chains ++ chains }

section

variable {chains : List Str} (isolated : Isolated table)

include isolated

theorem leads_flush (managed : ∀ chain ∈ chains, isManaged chain = true ∧ chain ∈ table.chains) :
    Leads faulty (chains.forM fun c =>
      ChainCommand.attempt ("nat: flushing chain " ++ c) (.clearChain c)) table
      (flushed table chains) := by
  let ready (left : List Str) (seen : Table) : Prop :=
    Isolated seen ∧ (∀ chain ∈ left, isManaged chain = true ∧ chain ∈ seen.chains) ∧
      flushed seen left = flushed table chains
  refine Leads.forM ready (fun _ _ holds => holds.1) (fun seen holds => ?_) ?_
    ⟨isolated, managed, rfl⟩
  · rw [← holds.2.2]
    simp [flushed]
  rintro chain left seen ⟨isolated, managed, rest⟩
  obtain ⟨is_managed, present⟩ := managed chain mem_cons_self
  have later := isolated.clearChain (isOwn_of_isManaged is_managed) present
  refine ⟨_, ensures_attempt rfl isolated later rfl, later, fun other mem => ?_, ?_⟩
  · obtain ⟨other_managed, other_present⟩ := managed other (mem_cons_of_mem _ mem)
    exact ⟨other_managed, mem_chains_clearChain.mpr (Or.inl other_present)⟩
  · rw [← rest, flushed, Table.clearChain, if_pos present]
    congr 1
    funext other
    by_cases same : other = chain
    · simp [same]
    · simp [same]

theorem leads_delete (emptied : Emptied table) (nodup : chains.Nodup)
    (managed : ∀ chain ∈ chains, isManaged chain = true ∧ chain ∈ table.chains) :
    Leads faulty (chains.forM fun c =>
      ChainCommand.attempt ("nat: deleting chain " ++ c) (.deleteChain c)) table
      (without table chains) := by
  let ready (left : List Str) (seen : Table) : Prop :=
    Isolated seen ∧ Emptied seen ∧ left.Nodup ∧
      (∀ chain ∈ left, isManaged chain = true ∧ chain ∈ seen.chains) ∧
      without seen left = without table chains
  refine Leads.forM ready (fun _ _ holds => holds.1) (fun seen holds => ?_) ?_
    ⟨isolated, emptied, nodup, managed, rfl⟩
  · rw [← holds.2.2.2.2]
    simp [without]
  rintro chain left seen ⟨isolated, emptied, nodup, managed, rest⟩
  obtain ⟨is_managed, present⟩ := managed chain mem_cons_self
  obtain ⟨not_left, left_nodup⟩ := nodup_cons.mp nodup
  have own := isOwn_of_isManaged is_managed
  have unchanged : Function.update seen.rules chain [] = seen.rules := by
    rw [← emptied chain own, update_eq_self]
  have effect_eq : (ChainCommand.deleteChain chain).effect seen =
      some ((), without seen [chain]) := by
    have allowed := And.intro present (And.intro (emptied chain own)
      (not_refers isolated emptied is_managed))
    simp [ChainCommand.effect, Table.deleteChain, allowed, without]
  have later : Isolated (without seen [chain]) := by
    have edited := isolated.edit own [] (isolated.nodup.filter (· ∉ [chain]))
      (fun other differs => by simp [differs]) fun _ => rfl
    rwa [unchanged] at edited
  refine ⟨_, ensures_attempt effect_eq isolated later rfl, later, emptied, left_nodup,
    fun other mem => ?_, ?_⟩
  · obtain ⟨other_managed, other_present⟩ := managed other (mem_cons_of_mem _ mem)
    have differs : other ≠ chain := fun same => not_left (same ▸ mem)
    exact ⟨other_managed, by simp [without, other_present, differs]⟩
  · rw [← rest]
    simp [without, Bool.and_comm]

theorem leads_create (emptied : Emptied table) (nodup : chains.Nodup)
    (managed : ∀ chain ∈ chains, isManaged chain = true ∧ chain ∉ table.chains) :
    Leads faulty (chains.forM fun c =>
      ChainCommand.attempt ("nat: creating chain " ++ c) (.newChain c)) table
      (withChains table chains) := by
  let ready (left : List Str) (seen : Table) : Prop :=
    Isolated seen ∧ Emptied seen ∧ left.Nodup ∧
      (∀ chain ∈ left, isManaged chain = true ∧ chain ∉ seen.chains) ∧
      withChains seen left = withChains table chains
  refine Leads.forM ready (fun _ _ holds => holds.1) (fun seen holds => ?_) ?_
    ⟨isolated, emptied, nodup, managed, rfl⟩
  · rw [← holds.2.2.2.2]
    simp [withChains]
  rintro chain left seen ⟨isolated, emptied, nodup, managed, rest⟩
  obtain ⟨is_managed, absent⟩ := managed chain mem_cons_self
  obtain ⟨not_left, left_nodup⟩ := nodup_cons.mp nodup
  have own := isOwn_of_isManaged is_managed
  have unchanged : Function.update seen.rules chain [] = seen.rules := by
    rw [← emptied chain own, update_eq_self]
  have effect_eq : (ChainCommand.newChain chain).effect seen =
      some ((), withChains seen [chain]) := by
    simp [ChainCommand.effect, Table.newChain, absent, withChains, unchanged]
  have later : Isolated (withChains seen [chain]) := by
    have created := isolated.newChain own absent
    rwa [unchanged] at created
  refine ⟨_, ensures_attempt effect_eq isolated later rfl, later, emptied, left_nodup,
    fun other mem => ?_, ?_⟩
  · obtain ⟨other_managed, other_absent⟩ := managed other (mem_cons_of_mem _ mem)
    have differs : other ≠ chain := fun same => not_left (same ▸ mem)
    exact ⟨other_managed, by simp [withChains, other_absent, differs]⟩
  · rw [← rest]
    simp [withChains]

end

theorem leads_append {rules : List Rule} (isolated : Isolated table)
    (placed : ∀ rule ∈ rules, isOwn rule.chain = true ∧ rule.chain ∈ table.chains ∧
      table.Resolves rule.args) :
    Leads faulty (rules.forM fun r => ChainCommand.attempt
      ("nat: appending to " ++ r.chain ++ " " ++ sprintSlice r.args)
        (.append r.chain r.args)) table (withRules table rules) := by
  let ready (left : List Rule) (seen : Table) : Prop :=
    Isolated seen ∧ (∀ rule ∈ left, isOwn rule.chain = true ∧ rule.chain ∈ seen.chains ∧
      seen.Resolves rule.args) ∧ withRules seen left = withRules table rules
  refine Leads.forM ready (fun _ _ holds => holds.1) (fun seen holds => ?_) ?_
    ⟨isolated, placed, rfl⟩
  · rw [← holds.2.2]
    simp [withRules, chainArgs]
  rintro rule left seen ⟨isolated, placed, rest⟩
  obtain ⟨own, present, resolves⟩ := placed rule mem_cons_self
  have later := isolated.withRule own present (seen.rules rule.chain ++ [rule.args])
  rw [← withRules_singleton] at later
  have effect_eq : (ChainCommand.append rule.chain rule.args).effect seen =
      some ((), withRules seen [rule]) := by
    simp [ChainCommand.effect, Table.appendRule, present, resolves, withRules_singleton]
  refine ⟨_, ensures_attempt effect_eq isolated later rfl, later,
    fun other mem => placed other (mem_cons_of_mem _ mem), ?_⟩
  rw [withRules_withRules, singleton_append, rest]

/-- The table that a sync ends with. -/
def synced (table : Table) (rs : Ruleset) : Table where
  chains := (hooked table).chains.filter (fun chain => !isManaged chain) ++ rs.chains
  rules chain := if isOwn chain then chainArgs chain rs.rules else (hooked table).rules chain

theorem synced_chains (table : Table) (rs : Ruleset) : (synced table rs).chains =
    (hooked table).chains.filter (fun chain => !isManaged chain) ++ rs.chains :=
  rfl

theorem rules_synced_own (own : isOwn chain = true) :
    (synced table rs).rules chain = chainArgs chain rs.rules :=
  if_pos own

theorem rules_synced_foreign (not_own : isOwn chain = false) :
    (synced table rs).rules chain = (hooked table).rules chain :=
  if_neg (by simp [not_own])

theorem Isolated.hooked (isolated : Isolated table) : Isolated (hooked table) := by
  refine List.foldlRecOn hookChains _ (isolated.withChain isOwn_rootChain) ?_
  exact fun seen isolated hook mem => isolated.withHook mem

theorem chains_hooked (table : Table) :
    (hooked table).chains = (withChain table rootChain).chains :=
  rfl

theorem rootChain_mem_hooked (table : Table) : rootChain ∈ (hooked table).chains := by
  exact mem_chains_withChain.mpr (Or.inr rfl)

theorem WellPlanned.isOwn_chain (planned : WellPlanned rs) {rule : Rule} (mem : rule ∈ rs.rules) :
    isOwn rule.chain = true := by
  rcases planned.chain rule mem with is_root | in_chains
  · rw [is_root, isOwn_rootChain]
  · exact isOwn_of_isManaged (planned.managed _ in_chains)

theorem WellPlanned.chainArgs_foreign (planned : WellPlanned rs) (not_own : isOwn chain = false) :
    chainArgs chain rs.rules = [] := by
  rw [chainArgs, map_eq_nil_iff, filter_eq_nil_iff]
  intro rule mem same
  rw [← of_decide_eq_true same, planned.isOwn_chain mem] at not_own
  cases not_own

theorem emptied_flushed (isolated : Isolated table) (root : table.rules rootChain = []) :
    Emptied (flushed table (table.chains.filter isManaged)) := by
  intro chain own
  simp only [flushed, mem_filter]
  split
  · rfl
  case isFalse not_flushed =>
    rcases Bool.or_eq_true_iff.mp own with is_root | managed
    · rw [eq_of_beq is_root, root]
    · exact isolated.missing chain fun present => not_flushed ⟨present, managed⟩

theorem leads_deleteManagedChains (isolated : Isolated table) (root : table.rules rootChain = []) :
    Leads faulty deleteManagedChains table (without
      (flushed table (table.chains.filter isManaged)) (table.chains.filter isManaged)) := by
  have listed : ∀ chain ∈ table.chains.filter isManaged,
      isManaged chain = true ∧ chain ∈ table.chains := fun chain mem =>
    (mem_filter.mp mem).symm
  refine Ensures.attempt (ensures_attempt rfl isolated isolated ?_)
  refine (leads_flush isolated listed).bind fun flushed_isolated => ?_
  exact leads_delete flushed_isolated (emptied_flushed isolated root)
    (isolated.nodup.filter isManaged) listed

theorem leads_applyRuleset (planned : WellPlanned rs) (isolated : Isolated table)
    (emptied : Emptied table) (root : rootChain ∈ table.chains)
    (unmanaged : ∀ chain ∈ table.chains, isManaged chain = false) :
    Leads faulty (applyRuleset rs) table (withRules (withChains table rs.chains) rs.rules) := by
  have absent : ∀ chain ∈ rs.chains, isManaged chain = true ∧ chain ∉ table.chains := by
    intro chain mem
    have managed := planned.managed chain mem
    refine ⟨managed, fun present => ?_⟩
    rw [unmanaged chain present] at managed
    cases managed
  refine (leads_create isolated emptied planned.nodup absent).bind fun isolated => ?_
  refine leads_append isolated fun rule mem => ⟨planned.isOwn_chain mem, ?_, ?_⟩
  · rcases planned.chain rule mem with is_root | in_chains
    · exact mem_append_left _ (is_root ▸ root)
    · exact mem_append_right _ in_chains
  · obtain ⟨target, found, rewrites | in_chains⟩ := planned.target rule mem
    · simp [Table.Resolves, found, rewrites, extensionTargets]
    · simp [Table.Resolves, found, withChains, in_chains]

theorem rebuild_eq (planned : WellPlanned rs) {base : Table}
    (base_eq : base = (hooked table).clearChain rootChain)
    (emptied : Emptied (flushed base (base.chains.filter isManaged))) :
    withRules (withChains (without (flushed base (base.chains.filter isManaged))
      (base.chains.filter isManaged)) rs.chains) rs.rules = synced table rs := by
  have chains_eq : base.chains = (hooked table).chains := by
    rw [base_eq, Table.clearChain, if_pos (rootChain_mem_hooked table)]
  have left_eq : base.chains.filter (· ∉ base.chains.filter isManaged) =
      (hooked table).chains.filter fun chain => !isManaged chain := by
    rw [← chains_eq]
    refine filter_congr fun chain present => ?_
    simp [present]
  have rules_eq : ∀ chain, (flushed base (base.chains.filter isManaged)).rules chain ++
      chainArgs chain rs.rules = (synced table rs).rules chain := by
    intro chain
    by_cases own : isOwn chain = true
    · rw [emptied chain own, nil_append, rules_synced_own own]
    · have not_own : isOwn chain = false := by simpa using own
      obtain ⟨not_root, not_managed⟩ : chain ≠ rootChain ∧ isManaged chain = false := by
        simpa [isOwn] using not_own
      have kept : base.rules chain = (hooked table).rules chain := by
        rw [base_eq]
        exact update_of_ne not_root ..
      rw [planned.chainArgs_foreign not_own, rules_synced_foreign not_own, ← kept]
      simp [flushed, not_managed]
  rw [withRules]
  congr 1
  · exact congrArg (· ++ rs.chains) left_eq
  · exact funext rules_eq

theorem leads_syncClusterSet (isolated : Isolated table) (runtime : Runtime Unit)
    (services : List ServiceDNAT) :
    Leads faulty (syncClusterSet runtime services) table
      (synced table (buildRuleset runtime services)) := by
  have planned : WellPlanned (buildRuleset runtime services) := wellPlanned_rulesetOf _
  have root := rootChain_mem_hooked table
  refine (leads_ensureInfra isolated).bind fun isolated => ?_
  have cleared := isolated.clearChain isOwn_rootChain root
  have root_empty : ((hooked table).clearChain rootChain).rules rootChain = [] := by
    simp [Table.clearChain]
  have emptied := emptied_flushed cleared root_empty
  refine Leads.bind (ensures_attempt rfl isolated cleared rfl) fun _ => ?_
  refine (leads_deleteManagedChains cleared root_empty).bind fun isolated => ?_
  rw [← rebuild_eq planned rfl emptied]
  refine leads_applyRuleset planned isolated emptied ?_ fun chain present => ?_
  · simp [without, flushed, isManaged_rootChain, mem_chains_clearChain]
  · obtain ⟨in_chains, kept⟩ := mem_filter.mp present
    have in_chains : chain ∈ ((hooked table).clearChain rootChain).chains := in_chains
    simpa [in_chains] using kept

end Steps

/-- A table holds a ruleset, and is otherwise as another one with the root chain hooked in. -/
structure Restored (before : Table) (rs : Ruleset) (after : Table) : Prop where
  root : rootChain ∈ after.chains
  managed : ∀ chain, isManaged chain = true → (chain ∈ after.chains ↔ chain ∈ rs.chains)
  rules : ∀ chain, isOwn chain = true → after.rules chain = chainArgs chain rs.rules
  jumps : ∀ hook ∈ hookChains, Table.jumpTo rootChain ∈ after.rules hook
  hooks : ∀ hook ∈ hookChains,
    after.rules hook = register (before.rules hook) (Table.jumpTo rootChain)
  chains : ∀ chain, isOwn chain = false → (chain ∈ after.chains ↔ chain ∈ before.chains)
  others : ∀ chain, isOwn chain = false → chain ∉ hookChains →
    after.rules chain = before.rules chain

theorem ne_rootChain (not_own : isOwn chain = false) : chain ≠ rootChain := by
  rintro rfl
  cases not_own

theorem isManaged_of_not_isOwn (not_own : isOwn chain = false) : isManaged chain = false :=
  (Bool.or_eq_false_iff.mp not_own).2

theorem rules_hooked_hook (table : Table) {hook : Str} (mem : hook ∈ hookChains) :
    (hooked table).rules hook = register (table.rules hook) (Table.jumpTo rootChain) := by
  have apart : preroutingChain ≠ "OUTPUT" := by decide
  have created : (withChain table rootChain).rules hook = table.rules hook :=
    rules_withChain (ne_rootChain (isOwn_hook mem))
  rw [← created]
  rcases mem_cons.mp mem with rfl | later
  · exact (rules_withHook_of_ne apart).trans (rules_withHook_self ..)
  · obtain rfl := mem_singleton.mp later
    exact (rules_withHook_self ..).trans
      (congrArg (register · _) (rules_withHook_of_ne (Ne.symm apart)))

theorem rules_hooked_of_not_hook (table : Table) (not_hook : chain ∉ hookChains) :
    (hooked table).rules chain = (withChain table rootChain).rules chain := by
  obtain ⟨not_first, not_second⟩ : chain ≠ preroutingChain ∧ chain ≠ "OUTPUT" := by
    simpa [hookChains] using not_hook
  exact (rules_withHook_of_ne not_second).trans (rules_withHook_of_ne not_first)

theorem rules_hooked_of_ne (table : Table) (not_own : isOwn chain = false)
    (not_hook : chain ∉ hookChains) : (hooked table).rules chain = table.rules chain :=
  (rules_hooked_of_not_hook table not_hook).trans (rules_withChain (ne_rootChain not_own))

theorem mem_chains_synced :
    chain ∈ (synced table rs).chains ↔
      (chain ∈ table.chains ∨ chain = rootChain) ∧ isManaged chain = false ∨ chain ∈ rs.chains := by
  simp [synced, chains_hooked, mem_chains_withChain]

theorem restored_synced (table : Table) (planned : WellPlanned rs) :
    Restored table rs (synced table rs) := by
  have hooks : ∀ hook ∈ hookChains, (synced table rs).rules hook =
      register (table.rules hook) (Table.jumpTo rootChain) := fun hook mem =>
    (rules_synced_foreign (isOwn_hook mem)).trans (rules_hooked_hook table mem)
  constructor
  case root => exact mem_chains_synced.mpr (.inl ⟨.inr rfl, isManaged_rootChain⟩)
  case managed =>
    intro chain managed
    simp [mem_chains_synced, managed]
  case rules => exact fun chain own => rules_synced_own own
  case jumps =>
    intro hook mem
    rw [hooks hook mem]
    exact mem_register.mpr (Or.inr rfl)
  case hooks => exact hooks
  case chains =>
    intro chain not_own
    have unplanned : chain ∉ rs.chains := fun listed => by
      have managed := planned.managed chain listed
      rw [isManaged_of_not_isOwn not_own] at managed
      cases managed
    simp [mem_chains_synced, isManaged_of_not_isOwn not_own, ne_rootChain not_own, unplanned]
  case others =>
    intro chain not_own not_hook
    rw [rules_synced_foreign not_own, rules_hooked_of_ne table not_own not_hook]

theorem hooked_eq_self (root : rootChain ∈ table.chains)
    (jumps : ∀ hook ∈ hookChains, Table.jumpTo rootChain ∈ table.rules hook) :
    hooked table = table := by
  have first := withHook_eq_self (jumps preroutingChain (by decide))
  have second := withHook_eq_self (jumps "OUTPUT" (by decide))
  rw [hooked, withChain, if_pos root, hookChains, foldl_cons, first, foldl_cons, second, foldl_nil]

theorem synced_synced (table : Table) (planned : WellPlanned rs) :
    synced (synced table rs) rs = synced table rs := by
  have restored := restored_synced table planned
  have unchanged := hooked_eq_self restored.root restored.jumps
  have chains_eq : (synced (synced table rs) rs).chains = (synced table rs).chains := by
    have none_left : rs.chains.filter (fun chain => !isManaged chain) = [] :=
      filter_eq_nil_iff.mpr fun chain mem => by simp [planned.managed chain mem]
    simp only [synced_chains, unchanged, filter_append, none_left, append_nil,
      filter_filter, Bool.and_self]
  have rules_eq : (synced (synced table rs) rs).rules = (synced table rs).rules := by
    funext chain
    by_cases own : isOwn chain = true
    · rw [rules_synced_own own, rules_synced_own own]
    · rw [rules_synced_foreign (by simpa using own), unchanged]
  exact Table.ext chains_eq rules_eq

/-- One sync, which may fail at any command. -/
def Attempts (before after : Table) : Prop :=
  ∃ runtime services result, (ChainCommand.world True).Returns
    (syncClusterSet runtime services).run before result after

theorem Isolated.attempts {before after : Table} (isolated : Isolated before)
    (attempts : Attempts before after) : Isolated after := by
  obtain ⟨runtime, services, result, returns⟩ := attempts
  exact ((leads_syncClusterSet isolated runtime services).with_always.returns returns).1

theorem exec_syncClusterSet (isolated : Isolated table) (runtime : Runtime Unit)
    (services : List ServiceDNAT) :
    (syncClusterSet runtime services).run.exec ChainCommand.obey table =
        (.ok (), synced table (buildRuleset runtime services)) ∧
      Isolated (synced table (buildRuleset runtime services)) := by
  have leads : Leads False (syncClusterSet runtime services) table _ :=
    leads_syncClusterSet isolated runtime services
  have reached := leads.with_always.returns (World.returns_exec respond_obey _ table)
  generalize (syncClusterSet runtime services).run.exec ChainCommand.obey table = run at reached
  obtain ⟨error | value, after⟩ := run
  · exact reached.2.elim
  · obtain ⟨still_isolated, rfl⟩ := reached
    exact ⟨rfl, still_isolated⟩

/-- Whatever earlier syncs have left of an isolated table, a sync in which only refused commands
fail is refused nothing, restores the planned chains and rules, and would change nothing if it
ran again. -/
theorem syncClusterSet_restores {start table : Table} (isolated : Isolated start)
    (earlier : Relation.ReflTransGen Attempts start table) (runtime : Runtime Unit)
    (services : List ServiceDNAT) :
    ∃ after, (syncClusterSet runtime services).run.exec ChainCommand.obey table = (.ok (), after) ∧
      Restored table (buildRuleset runtime services) after ∧
      (syncClusterSet runtime services).run.exec ChainCommand.obey after = (.ok (), after) := by
  have planned : WellPlanned (buildRuleset runtime services) := wellPlanned_rulesetOf _
  have now : Isolated table := by
    induction earlier with
    | refl => exact isolated
    | tail _ attempts ih => exact ih.attempts attempts
  obtain ⟨first, still_isolated⟩ := exec_syncClusterSet now runtime services
  have second := (exec_syncClusterSet still_isolated runtime services).1
  rw [synced_synced table planned] at second
  exact ⟨_, first, restored_synced table planned, second⟩

/-- A table with the chains of a service that is gone. -/
def staleTable : Table where
  chains := hookChains ++ [rootChain, "DWX-SVC-GONE", "DWX-SEP-GONE"]
  rules chain :=
    if chain = preroutingChain then [Table.jumpTo "KUBE-SERVICES"]
    else if chain = rootChain then [Table.jumpTo "DWX-SVC-GONE"]
    else if chain = "DWX-SVC-GONE" then [Table.jumpTo "DWX-SEP-GONE"]
    else []

theorem staleTable_isolated : Isolated staleTable where
  nodup := by decide
  hooks := by decide
  missing chain absent := by
    simp only [staleTable, hookChains, mem_append, mem_cons, not_mem_nil, or_false,
      not_or] at absent
    simp [staleTable, absent]
  foreign chain not_own args in_rules target found := by
    have not_svc : chain ≠ "DWX-SVC-GONE" := by
      rintro rfl
      cases not_own
    rw [staleTable] at in_rules
    simp only [ne_rootChain not_own, not_svc, if_false] at in_rules
    split at in_rules
    · obtain rfl := mem_singleton.mp in_rules
      rw [jumpTarget_jumpTo] at found
      obtain rfl := Option.some.inj found
      decide
    · cases in_rules

theorem syncClusterSet_restores_stale :
    ∃ after, (syncClusterSet (.stable Unit) [apiService]).run.exec ChainCommand.obey staleTable =
        (.ok (), after) ∧
      str "DWX-SVC-GONE" ∉ after.chains ∧ (after.rules rootChain).length = 1 ∧
      after.rules preroutingChain =
        [Table.jumpTo rootChain, Table.jumpTo "KUBE-SERVICES"] := by
  obtain ⟨after, run, restored, -⟩ :=
    syncClusterSet_restores staleTable_isolated .refl (.stable Unit) [apiService]
  have gone := restored.managed "DWX-SVC-GONE" (by decide)
  refine ⟨after, run, gone.not.mpr (by decide +kernel), ?_,
    restored.hooks preroutingChain (by decide)⟩
  rw [restored.rules rootChain isOwn_rootChain]
  decide +kernel

end DatawerxMesh.NatPlane.ClusterSet
