import DatawerxMesh.Go.Runtime
import DatawerxMesh.NatPlane.Manager
import DatawerxMesh.NatPlane.Ruleset

/-!
# Syncing the ClusterSetIP chains

`Manager.syncClusterSet` of `pkg/nat/manager.go`: the chains of earlier syncs are flushed and
deleted, and the planned ones are created anew.
-/

namespace DatawerxMesh.NatPlane

open Go Program Netfilter Sorting List

/-- The built-in chains that lead to the services. -/
def hookChains : List Str := [preroutingChain, "OUTPUT"]

/-- A service with two backends, one of them listed twice. -/
def apiService : ServiceDNAT where
  namespace_ := "prod"
  name := "api"
  vip := "241.0.0.9"
  ports := [⟨"TCP", 8080⟩, ⟨[], 8080⟩]
  backends := ["10.0.0.3", "10.0.0.1", "10.0.0.3"]

namespace ClusterSet

/-- A program of commands that may fail. -/
abbrev Procedure := ExceptT Str (Script ChainCommand ChainCommand.Answer) Unit

/-- `BuildRuleset`, with the order in which `sort.Slice` leaves services of one name. -/
def buildRuleset (runtime : Runtime Unit) (services : List ServiceDNAT) : Ruleset :=
  rulesetOf (runtime.sortSlice () lessService services)

/-- A chain is created if it is missing. -/
def ensureChain (chain : Str) : Procedure := do
  let present ← ChainCommand.attempt ("nat: checking chain " ++ chain) (.chainExists chain)
  if !present then
    ChainCommand.attempt ("nat: creating chain " ++ chain) (.newChain chain)

/-- The jump to a chain. -/
def ensureHook (builtin target : Str) : Procedure := do
  let present ← ChainCommand.attempt ("nat: checking " ++ builtin ++ " hook")
    (.ruleExists builtin (Table.jumpTo target))
  if !present then
    ChainCommand.attempt ("nat: installing " ++ builtin ++ " hook")
      (.insert builtin (Table.jumpTo target))

/-- The root chain and the jumps to it. -/
def ensureInfra : Procedure := do
  ensureChain rootChain
  hookChains.forM fun hook => ensureHook hook rootChain

/-- The chains of which `deleteManagedChains` takes care. -/
def isManaged (chain : Str) : Bool :=
  hasPrefix chain svcChainPrefix || hasPrefix chain sepChainPrefix

/-- All are flushed before any is deleted. -/
def deleteManagedChains : Procedure := do
  let existing ← ChainCommand.attempt "nat: listing chains" .listChains
  let managed := existing.filter isManaged
  managed.forM fun c => ChainCommand.attempt ("nat: flushing chain " ++ c) (.clearChain c)
  managed.forM fun c => ChainCommand.attempt ("nat: deleting chain " ++ c) (.deleteChain c)

/-- The chains come before the rules. -/
def applyRuleset (rs : Ruleset) : Procedure := do
  rs.chains.forM fun c => ChainCommand.attempt ("nat: creating chain " ++ c) (.newChain c)
  rs.rules.forM fun r =>
    ChainCommand.attempt ("nat: appending to " ++ r.chain ++ " " ++ sprintSlice r.args)
      (.append r.chain r.args)

/-- The chains are rebuilt from nothing. -/
def syncClusterSet (runtime : Runtime Unit) (services : List ServiceDNAT) : Procedure := do
  let rs := buildRuleset runtime services
  ensureInfra
  ChainCommand.attempt ("nat: flushing " ++ rootChain) (.clearChain rootChain)
  deleteManagedChains
  applyRuleset rs

/-- The chains that a sync rebuilds. -/
def isOwn (chain : Str) : Bool := chain == rootChain || isManaged chain

theorem isManaged_rootChain : isManaged rootChain = false := by decide

theorem isOwn_rootChain : isOwn rootChain = true := by decide

theorem isOwn_of_isManaged {chain : Str} (managed : isManaged chain = true) :
    isOwn chain = true := by
  rw [isOwn, managed, Bool.or_true]

theorem isOwn_hook {hook : Str} (mem : hook ∈ hookChains) : isOwn hook = false := by
  revert hook
  decide

theorem isManaged_hashChain {kind : Str} (is_kind : kind = svcChainPrefix ∨ kind = sepChainPrefix)
    (parts : List Str) : isManaged (hashChain kind parts) = true := by
  have starts : hasPrefix (hashChain kind parts) kind = true := by
    rw [hasPrefix, hashChain, take_left, beq_self_eq_true]
  rcases is_kind with rfl | rfl
  · rw [isManaged, starts, Bool.true_or]
  · rw [isManaged, starts, Bool.or_true]

theorem isManaged_of_mem_chains {x : Expansion} {chain : Str} (mem : chain ∈ x.chains) :
    isManaged chain = true := by
  rw [Expansion.chains, mem_cons, mem_map] at mem
  rcases mem with rfl | ⟨backend, -, rfl⟩
  · exact isManaged_hashChain (.inl rfl) _
  · exact isManaged_hashChain (.inr rfl) _

theorem jumpTarget_last (args : List Str) (chain : Str) :
    jumpTarget (args ++ [str "-j", chain]) = some chain :=
  jumpTarget_append args (jumpTarget_jumpTo chain)

theorem jumpTarget_dnatRule (x : Expansion) (backend : Str) :
    jumpTarget (x.dnatRule backend).args = some (str "DNAT") :=
  jumpTarget_append [str "-p", x.proto]
    (jumpTarget_option (dnatTarget backend x.portStr) (by decide) (by decide))

theorem chain_target_of_mem_rules {x : Expansion} {rule : Rule} (mem : rule ∈ x.rules) :
    (rule.chain = rootChain ∨ rule.chain ∈ x.chains) ∧
      ∃ target, jumpTarget rule.args = some target ∧ (target = "DNAT" ∨ target ∈ x.chains) := by
  rw [Expansion.rules, mem_cons, mem_append, mem_map] at mem
  rcases mem with rfl | balanced | ⟨backend, in_backends, rfl⟩
  · exact ⟨.inl rfl, x.svcChain, jumpTarget_last [_, _, _, _, _, _, _, _] x.svcChain,
      .inr mem_cons_self⟩
  · obtain ⟨chain_eq, sep, in_seps, args_eq | ⟨probability, args_eq⟩⟩ := mem_balance balanced
    · refine ⟨.inr (chain_eq ▸ mem_cons_self), sep, ?_, .inr (mem_cons_of_mem _ in_seps)⟩
      rw [args_eq]
      exact jumpTarget_last [] sep
    · refine ⟨.inr (chain_eq ▸ mem_cons_self), sep, ?_, .inr (mem_cons_of_mem _ in_seps)⟩
      rw [args_eq]
      exact jumpTarget_last [_, _, _, _, _, _] sep
  · exact ⟨.inr (mem_cons_of_mem _ (mem_map_of_mem in_backends)), _,
      jumpTarget_dnatRule x backend, .inl rfl⟩

/-- What the sync relies on in a ruleset. -/
structure WellPlanned (rs : Ruleset) : Prop where
  nodup : rs.chains.Nodup
  managed : ∀ chain ∈ rs.chains, isManaged chain = true
  chain : ∀ rule ∈ rs.rules, rule.chain = rootChain ∨ rule.chain ∈ rs.chains
  target : ∀ rule ∈ rs.rules, ∃ target, jumpTarget rule.args = some target ∧
    (target = "DNAT" ∨ target ∈ rs.chains)

theorem mem_chains_rulesetOf {arranged : List ServiceDNAT} {chain : Str} :
    chain ∈ (rulesetOf arranged).chains ↔ ∃ x ∈ expansionsOf arranged, chain ∈ x.chains := by
  simp [rulesetOf, sortStrings]

theorem wellPlanned_rulesetOf (arranged : List ServiceDNAT) : WellPlanned (rulesetOf arranged) where
  nodup := (sort_perm less _).nodup_iff.mpr (nodup_dedup _)
  managed chain mem := by
    obtain ⟨x, -, in_chains⟩ := mem_chains_rulesetOf.mp mem
    exact isManaged_of_mem_chains in_chains
  chain rule mem := by
    obtain ⟨x, expanded, in_rules⟩ := mem_flatMap.mp mem
    exact (chain_target_of_mem_rules in_rules).1.imp_right fun in_chains =>
      mem_chains_rulesetOf.mpr ⟨x, expanded, in_chains⟩
  target rule mem := by
    obtain ⟨x, expanded, in_rules⟩ := mem_flatMap.mp mem
    obtain ⟨target, found, shape⟩ := (chain_target_of_mem_rules in_rules).2
    exact ⟨target, found, shape.imp_right fun in_chains =>
      mem_chains_rulesetOf.mpr ⟨x, expanded, in_chains⟩⟩

end ClusterSet

end DatawerxMesh.NatPlane
